import Mathlib.Data.List.Induction
import Mathlib.Data.List.Nodup
import Mathlib.Data.List.Perm.Subperm
import Mathlib.Logic.Relation
import Ontogram.DisjointSets

/-!
# Disjoint sets are the classes of an equivalence

Unions in turn give the equivalence that the joined pairs generate, and the groups of some items are
its classes. Which of two representatives a union keeps does not matter for this.

* `find_ofPairs_eq_iff` — two items are in one set exactly if the pairs join them.
* `flatMap_groups_perm` — each item is in one group.
* `mem_group_iff` — a group has the items of a set.
* `group_sublist`, `firstItems_groups_sublist` — groups and their items are in the order of the items.
-/

namespace Ontogram.DisjointSets

variable {α : Type} [DecidableEq α]

/-! ## Unions -/

theorem find_takeOver (s : DisjointSets α) (grown : List α) (a b x : α) :
    find ⟨s.taken ++ [(a, b)], grown⟩ x = if s.find x = a then b else s.find x := by
  rw [find, List.foldl_append]
  rfl

/-- A union takes every item to the representative that is kept, if its own is one of the two. -/
theorem find_union (s : DisjointSets α) (x y : α) :
    ∃ r, (r = s.find x ∨ r = s.find y) ∧ ∀ z, (s.union x y).find z =
      if s.find z = s.find x ∨ s.find z = s.find y then r else s.find z := by
  unfold union
  simp only
  split
  · next h =>
    refine ⟨s.find x, Or.inl rfl, fun z => ?_⟩
    grind
  · split
    · refine ⟨s.find y, Or.inr rfl, fun z => ?_⟩
      rw [find_takeOver]
      grind
    · split
      all_goals
        refine ⟨s.find x, Or.inl rfl, fun z => ?_⟩
        rw [find_takeOver]
        grind

/-- **A union joins the sets of its items and no others.** -/
theorem find_union_eq_iff (s : DisjointSets α) (x y u v : α) :
    (s.union x y).find u = (s.union x y).find v ↔
      s.find u = s.find v ∨ (s.find u = s.find x ∧ s.find v = s.find y) ∨
        (s.find u = s.find y ∧ s.find v = s.find x) := by
  obtain ⟨r, hr, hf⟩ := s.find_union x y
  rw [hf u, hf v]
  grind

/-- Joined by one of the pairs. -/
def Paired (pairs : List (α × α)) (x y : α) : Prop :=
  (x, y) ∈ pairs

/-- What a relation joins is in one set if the items it relates are. -/
theorem find_eq_of_eqvGen {s : DisjointSets α} {r : α → α → Prop}
    (agrees : ∀ a b, r a b → s.find a = s.find b) {u v : α} (h : Relation.EqvGen r u v) :
    s.find u = s.find v := by
  induction h with
  | rel a b h => exact agrees a b h
  | refl => rfl
  | symm _ _ _ ih => exact ih.symm
  | trans _ _ _ _ _ ih₁ ih₂ => exact ih₁.trans ih₂

theorem ofPairs_append_singleton (pairs : List (α × α)) (p : α × α) :
    ofPairs (pairs ++ [p]) = (ofPairs pairs).union p.1 p.2 := by
  rw [ofPairs, List.foldl_append]
  rfl

/-- **Two items are in one set exactly if the pairs join them.** -/
theorem find_ofPairs_eq_iff (pairs : List (α × α)) (u v : α) :
    (ofPairs pairs).find u = (ofPairs pairs).find v ↔ Relation.EqvGen (Paired pairs) u v := by
  induction pairs using List.reverseRecOn generalizing u v with
  | nil =>
    constructor
    · rintro rfl
      exact .refl u
    · exact find_eq_of_eqvGen fun _ _ h => absurd h List.not_mem_nil
  | append_singleton pairs p ih =>
    rw [ofPairs_append_singleton]
    constructor
    · -- What was joined before stays joined, and the new pair joins its own ends.
      have hold : ∀ {a b}, (ofPairs pairs).find a = (ofPairs pairs).find b →
          Relation.EqvGen (Paired (pairs ++ [p])) a b := fun h =>
        Relation.EqvGen.mono (fun _ _ => List.mem_append_left _) _ _ ((ih _ _).1 h)
      have hnew : Relation.EqvGen (Paired (pairs ++ [p])) p.1 p.2 :=
        .rel _ _ (List.mem_append_right _ List.mem_cons_self)
      intro h
      rcases (find_union_eq_iff _ _ _ _ _).1 h with h | ⟨hu, hv⟩ | ⟨hu, hv⟩
      · exact hold h
      · exact ((hold hu).trans _ _ _ hnew).trans _ _ _ (hold hv.symm)
      · exact ((hold hu).trans _ _ _ hnew.symm).trans _ _ _ (hold hv.symm)
    · refine find_eq_of_eqvGen fun a b h => ?_
      rw [find_union_eq_iff]
      rcases List.mem_append.1 h with h | h
      · exact Or.inl ((ih a b).2 (.rel _ _ h))
      · obtain rfl := List.mem_singleton.1 h
        exact Or.inr (Or.inl ⟨rfl, rfl⟩)

/-! ## Groups -/

theorem flatMap_putInGroup_perm (key x : α) (gs : List (α × List α)) :
    ((putInGroup key x gs).flatMap Prod.snd).Perm (gs.flatMap Prod.snd ++ [x]) := by
  induction gs with
  | nil => simp [putInGroup]
  | cons g gs ih =>
    unfold putInGroup
    split
    · rw [List.flatMap_cons, List.flatMap_cons, List.append_assoc, List.append_assoc]
      exact List.perm_append_comm.append_left g.2
    · rw [List.flatMap_cons, List.flatMap_cons, List.append_assoc]
      exact ih.append_left g.2

/-- **Each item is in one group.** -/
theorem flatMap_groups_perm (s : DisjointSets α) (items : List α) :
    ((s.groups items).flatMap Prod.snd).Perm items := by
  induction items using List.reverseRecOn with
  | nil => exact List.Perm.refl []
  | append_singleton items x ih =>
    rw [groups, List.foldl_append]
    exact (flatMap_putInGroup_perm (s.find x) x _).trans (ih.append_right [x])

/-- Groups under different keys, each with the items that have its key. -/
structure Grouped (s : DisjointSets α) (gs : List (α × List α)) : Prop where
  keys_nodup : (gs.map Prod.fst).Nodup
  ne_nil : ∀ g ∈ gs, g.2 ≠ []
  find_eq : ∀ g ∈ gs, ∀ x ∈ g.2, s.find x = g.1

theorem keys_putInGroup (key x : α) (gs : List (α × List α)) :
    (putInGroup key x gs).map Prod.fst =
      if key ∈ gs.map Prod.fst then gs.map Prod.fst else gs.map Prod.fst ++ [key] := by
  induction gs with
  | nil => rfl
  | cons g gs ih =>
    unfold putInGroup
    split
    · next h => simp [h]
    · next h =>
      rw [List.map_cons, ih, List.map_cons]
      have hk : (key ∈ g.1 :: gs.map Prod.fst) ↔ key ∈ gs.map Prod.fst := by
        simp [Ne.symm h]
      simp only [hk]
      split <;> rfl

theorem mem_putInGroup {key x : α} {gs : List (α × List α)} {g : α × List α}
    (hg : g ∈ putInGroup key x gs) :
    g ∈ gs ∨ (g.1 = key ∧ ∃ xs, g.2 = xs ++ [x] ∧ (xs = [] ∨ (key, xs) ∈ gs)) := by
  induction gs with
  | nil =>
    obtain rfl := List.mem_singleton.1 hg
    exact Or.inr ⟨rfl, [], rfl, Or.inl rfl⟩
  | cons h gs ih =>
    unfold putInGroup at hg
    split at hg
    · next hk =>
      rcases List.mem_cons.1 hg with rfl | hg
      · refine Or.inr ⟨rfl, h.2, rfl, Or.inr ?_⟩
        rw [← hk]
        exact List.mem_cons_self
      · exact Or.inl (List.mem_cons_of_mem _ hg)
    · rcases List.mem_cons.1 hg with rfl | hg
      · exact Or.inl List.mem_cons_self
      · rcases ih hg with hg | ⟨hk, xs, hx, hxs⟩
        · exact Or.inl (List.mem_cons_of_mem _ hg)
        · exact Or.inr ⟨hk, xs, hx, hxs.imp_right (List.mem_cons_of_mem _)⟩

theorem Grouped.putInGroup {s : DisjointSets α} {gs : List (α × List α)} (h : Grouped s gs)
    (x : α) : Grouped s (putInGroup (s.find x) x gs) where
  keys_nodup := by
    rw [keys_putInGroup]
    split
    · exact h.keys_nodup
    · next hk => exact h.keys_nodup.append (List.nodup_singleton _) (by simpa using hk)
  ne_nil := by
    intro g hg
    rcases mem_putInGroup hg with hg | ⟨-, xs, hx, -⟩
    · exact h.ne_nil g hg
    · simp [hx]
  find_eq := by
    intro g hg z hz
    rcases mem_putInGroup hg with hg | ⟨hk, xs, hx, hxs⟩
    · exact h.find_eq g hg z hz
    · rw [hk]
      rw [hx] at hz
      rcases List.mem_append.1 hz with hz | hz
      · rcases hxs with rfl | hxs
        · exact absurd hz List.not_mem_nil
        · exact h.find_eq _ hxs z hz
      · rw [List.mem_singleton.1 hz]

theorem grouped_groups (s : DisjointSets α) (items : List α) : Grouped s (s.groups items) := by
  induction items using List.reverseRecOn with
  | nil => exact ⟨List.nodup_nil, nofun, nofun⟩
  | append_singleton items x ih =>
    rw [groups, List.foldl_append]
    exact ih.putInGroup x

/-- **A group has the items of a set.** -/
theorem mem_group_iff {s : DisjointSets α} {items : List α} {g : α × List α}
    (hg : g ∈ s.groups items) {x : α} : x ∈ g.2 ↔ x ∈ items ∧ s.find x = g.1 := by
  have h := s.grouped_groups items
  have hp := s.flatMap_groups_perm items
  constructor
  · intro hx
    exact ⟨hp.mem_iff.1 (List.mem_flatMap.2 ⟨g, hg, hx⟩), h.find_eq g hg x hx⟩
  · rintro ⟨hx, hk⟩
    obtain ⟨g', hg', hx'⟩ := List.mem_flatMap.1 (hp.mem_iff.2 hx)
    have hkey : g'.1 = g.1 := (h.find_eq g' hg' x hx').symm.trans hk
    rwa [← List.inj_on_of_nodup_map h.keys_nodup hg' hg hkey]

/-! ## The order of the groups -/

/-- **A group keeps the order of the items.** -/
theorem group_sublist {s : DisjointSets α} {items : List α} {g : α × List α}
    (hg : g ∈ s.groups items) : g.2.Sublist items := by
  induction items using List.reverseRecOn generalizing g with
  | nil => exact absurd hg List.not_mem_nil
  | append_singleton items x ih =>
    rw [groups, List.foldl_append] at hg
    rcases mem_putInGroup hg with hg | ⟨-, xs, hx, hxs⟩
    · exact (ih hg).trans (List.sublist_append_left items [x])
    · rw [hx]
      refine List.Sublist.append ?_ (List.Sublist.refl [x])
      rcases hxs with rfl | hxs
      · exact List.nil_sublist items
      · exact ih hxs

/-- The first items of some groups. -/
def firstItems (gs : List (α × List α)) : List α :=
  gs.filterMap fun g => g.2.head?

/-- An item becomes a first one if its group is new. -/
theorem firstItems_putInGroup (key x : α) {gs : List (α × List α)} (hgs : ∀ g ∈ gs, g.2 ≠ []) :
    firstItems (putInGroup key x gs) = firstItems gs ∨
      firstItems (putInGroup key x gs) = firstItems gs ++ [x] := by
  induction gs with
  | nil => exact Or.inr rfl
  | cons g gs ih =>
    obtain ⟨first, hfirst⟩ := Option.isSome_iff_exists.1
      (List.isSome_head?.2 (hgs g List.mem_cons_self))
    have hcons : firstItems (g :: gs) = first :: firstItems gs :=
      List.filterMap_cons_some hfirst
    unfold putInGroup
    split
    · have hhead : (g.2 ++ [x]).head? = some first := by
        rw [List.head?_append, hfirst]
        rfl
      refine Or.inl ?_
      rw [hcons]
      exact List.filterMap_cons_some hhead
    · have hput : firstItems (g :: putInGroup key x gs) =
          first :: firstItems (putInGroup key x gs) := List.filterMap_cons_some hfirst
      rw [hput, hcons]
      rcases ih fun g' hg' => hgs g' (List.mem_cons_of_mem g hg') with he | he
      · exact Or.inl (by rw [he])
      · exact Or.inr (by rw [he]; rfl)

/-- **The groups are ordered by their first items.** -/
theorem firstItems_groups_sublist (s : DisjointSets α) (items : List α) :
    (firstItems (s.groups items)).Sublist items := by
  induction items using List.reverseRecOn with
  | nil => exact List.Sublist.refl []
  | append_singleton items x ih =>
    rw [groups, List.foldl_append]
    rcases firstItems_putInGroup (s.find x) x (s.grouped_groups items).ne_nil with he | he
    · exact (he ▸ ih).trans (List.sublist_append_left items [x])
    · exact he ▸ ih.append (List.Sublist.refl [x])

end Ontogram.DisjointSets
