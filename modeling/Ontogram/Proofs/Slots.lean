import Mathlib.Data.List.Nodup
import Ontogram.Slots

/-!
# Slots and the order of insertion

Values are listed in the order of their slots. That is the order in which they were inserted as long
as each took a slot above the ones that were live, and a vacated slot that is taken again may lie
below one of those.

* `Slots.insertions` — the live values and their slots in the order in which they were inserted.
* `Slots.slotAfter`, `Slots.taken` — which slots the next values take.
* `Slots.map_toList_eq_iff` — when the values are listed in the order of insertion.
* `Slots.Extended.inOrder_iff` — when they still are after more values were inserted.
-/

namespace Ontogram.Slots

variable {α β : Type} {s t u : Slots α} {n k : Nat}

/-! ## What was inserted -/

/-- The live values with their slots in the order in which they were inserted. -/
def insertions (s : Slots α) : List (Nat × α) :=
  s.live.reverse

/-- The live values in the order in which they were inserted. -/
def inserted (s : Slots α) : List α :=
  s.insertions.map Prod.snd

/-- The live slots in the order in which their values were inserted. -/
def slots (s : Slots α) : List Nat :=
  s.insertions.map Prod.fst

/-- A new value comes last. -/
@[simp]
theorem insertions_insert (s : Slots α) (a : α) :
    (s.insert a).insertions = s.insertions ++ [(s.next, a)] :=
  List.reverse_cons

/-- A removal keeps the order of the others. -/
@[simp]
theorem insertions_eraseWhere (s : Slots α) (p : Nat → α → Bool) :
    (s.eraseWhere p).insertions = s.insertions.filter fun x => !p x.1 x.2 :=
  (List.filter_reverse).symm

/-- A value that is rewritten keeps its place. -/
@[simp]
theorem insertions_map (s : Slots α) (f : Nat → α → α) :
    (s.map f).insertions = s.insertions.map fun x => (x.1, f x.1 x.2) :=
  List.map_reverse.symm

@[simp]
theorem slots_map (s : Slots α) (f : Nat → α → α) : (s.map f).slots = s.slots := by
  rw [slots, insertions_map, List.map_map]
  rfl

theorem mem_slots : k ∈ s.slots ↔ k ∈ s.live.map Prod.fst := by
  rw [slots, insertions, List.map_reverse, List.mem_reverse]

theorem entries_perm_insertions (s : Slots α) : s.entries.Perm s.insertions :=
  s.entries_perm.trans (List.reverse_perm _).symm

/-! ## Slots in the order of insertion -/

/-- Each value has a slot above those of the values inserted before it. -/
def InOrder (s : Slots α) : Prop :=
  s.slots.Pairwise (· < ·)

theorem inOrder_empty : (empty : Slots α).InOrder :=
  List.Pairwise.nil

theorem InOrder.eraseWhere (h : s.InOrder) (p : Nat → α → Bool) : (s.eraseWhere p).InOrder := by
  unfold InOrder slots
  rw [insertions_eraseWhere]
  exact h.sublist (List.filter_sublist.map _)

theorem inOrder_map (s : Slots α) (f : Nat → α → α) : (s.map f).InOrder ↔ s.InOrder := by
  rw [InOrder, slots_map, InOrder]

/-- The values are listed with their slots in the order of insertion if the slots are in it. -/
theorem entries_eq_iff : s.entries = s.insertions ↔ s.InOrder := by
  unfold InOrder slots
  rw [List.pairwise_map]
  constructor
  · intro h
    exact h ▸ s.entries_sorted
  · intro h
    exact s.entries_perm_insertions.eq_of_pairwise
      (fun _ _ _ _ hab hba => absurd hab (Nat.lt_asymm hba)) s.entries_sorted h

theorem eq_of_map_eq {f : α → β} {l m : List α} (hf : ∀ x ∈ l, ∀ y ∈ m, f x = f y → x = y)
    (h : l.map f = m.map f) : l = m := by
  induction l generalizing m with
  | nil => exact (List.map_eq_nil_iff.1 h.symm).symm
  | cons x l ih =>
    obtain ⟨y, m, rfl, hxy, hlm⟩ := List.map_eq_cons_iff.1 h.symm
    rw [hf x List.mem_cons_self y List.mem_cons_self hxy.symm,
      ih (fun a ha b hb => hf a (List.mem_cons_of_mem x ha) b (List.mem_cons_of_mem y hb)) hlm.symm]

/-- **The values are listed in the order of insertion if and only if the slots are in it**, told by
anything that tells the values apart. -/
theorem map_toList_eq_iff {f : α → β} (hf : (s.toList.map f).Nodup) :
    s.toList.map f = s.inserted.map f ↔ s.InOrder := by
  rw [toList, List.map_map] at hf
  rw [← entries_eq_iff, toList, inserted, List.map_map, List.map_map]
  refine ⟨fun h => eq_of_map_eq (fun x hx y hy hxy => ?_) h, fun h => by rw [h]⟩
  exact List.inj_on_of_nodup_map hf hx (s.entries_perm_insertions.mem_iff.2 hy) hxy

/-! ## The slots that are taken next -/

/-- The slot that a value takes after so many others: one of the vacant slots, the last vacated
first, or else a new one. -/
def slotAfter (s : Slots α) (n : Nat) : Nat :=
  s.vacant[n]?.getD (s.bound + (n - s.vacant.length))

/-- The slots that so many values take. -/
def taken (s : Slots α) (n : Nat) : List Nat :=
  (List.range n).map s.slotAfter

theorem taken_succ (s : Slots α) (n : Nat) : s.taken (n + 1) = s.taken n ++ [s.slotAfter n] := by
  rw [taken, List.range_succ, List.map_append]
  rfl

theorem slotAfter_zero (s : Slots α) : s.slotAfter 0 = s.next := by
  unfold slotAfter next
  cases s.vacant <;> rfl

theorem slotAfter_insert (s : Slots α) (a : α) (n : Nat) :
    (s.insert a).slotAfter n = s.slotAfter (n + 1) := by
  show s.vacant.tail[n]?.getD (max s.bound (s.vacant.headD s.bound + 1) +
    (n - s.vacant.tail.length)) = s.vacant[n + 1]?.getD (s.bound + (n + 1 - s.vacant.length))
  cases hv : s.vacant with
  | nil =>
    simp only [List.tail_nil, List.getElem?_nil, Option.getD_none, List.headD_nil, List.length_nil]
    omega
  | cons i rest =>
    -- A vacant slot was used before, so taking it needs no new one.
    have hi : i < s.bound := s.lt_bound i (by simp [hv])
    simp only [List.tail_cons, List.headD_cons, List.getElem?_cons_succ, List.length_cons]
    rw [Nat.max_eq_left (by omega), Nat.add_sub_add_right]

/-- The next values take slots above the live ones, each above the one before it. -/
structure Room (s : Slots α) (n : Nat) : Prop where
  ascending : (s.taken n).Pairwise (· < ·)
  above : ∀ i ∈ s.slots, ∀ j ∈ s.taken n, i < j

/-- A new slot is above all others, and only new ones are taken where none is vacant. -/
theorem room_of_vacant_eq_nil (hs : s.vacant = []) (n : Nat) : s.Room n := by
  have hslot : ∀ k, s.slotAfter k = s.bound + k := by
    intro k
    rw [slotAfter, hs]
    rfl
  refine ⟨?_, ?_⟩
  · rw [taken, List.pairwise_map]
    refine List.pairwise_lt_range.imp fun {i j} hij => ?_
    rw [hslot, hslot]
    omega
  · intro i hi j hj
    obtain ⟨k, -, rfl⟩ := List.mem_map.1 hj
    have := s.lt_bound i (List.mem_append_left _ (mem_slots.1 hi))
    rw [hslot]
    omega

/-! ## More values -/

/-- Values were inserted, and some rewritten. -/
inductive Extended (s : Slots α) : Slots α → Prop where
  | refl : Extended s s
  | insert {t : Slots α} (h : Extended s t) (a : α) : Extended s (t.insert a)
  | map {t : Slots α} (h : Extended s t) (f : Nat → α → α) : Extended s (t.map f)

theorem extended_insert (s : Slots α) (a : α) : Extended s (s.insert a) :=
  Extended.refl.insert a

theorem extended_map (s : Slots α) (f : Nat → α → α) : Extended s (s.map f) :=
  Extended.refl.map f

theorem Extended.trans (hst : Extended s t) (htu : Extended t u) : Extended s u := by
  induction htu with
  | refl => exact hst
  | insert _ a ih => exact ih.insert a
  | map _ f ih => exact ih.map f

/-- **The values that were inserted took the next slots.** -/
theorem Extended.exists_taken (h : Extended s t) :
    ∃ n, t.size = s.size + n ∧ t.slots = s.slots ++ s.taken n ∧
      ∀ k, t.slotAfter k = s.slotAfter (n + k) := by
  induction h with
  | refl => exact ⟨0, rfl, by simp [taken], fun k => by rw [Nat.zero_add]⟩
  | @insert t _ a ih =>
    obtain ⟨n, hsize, hslots, hafter⟩ := ih
    refine ⟨n + 1, ?_, ?_, fun k => ?_⟩
    · rw [← Nat.add_assoc, ← hsize]
      rfl
    · rw [slots, insertions_insert, List.map_append, ← slots, hslots, taken_succ,
        ← List.append_assoc, List.map_singleton, ← slotAfter_zero, hafter, Nat.add_zero]
    · rw [slotAfter_insert, hafter, Nat.add_assoc, Nat.add_comm 1 k]
  | @map t _ f ih =>
    obtain ⟨n, hsize, hslots, hafter⟩ := ih
    exact ⟨n, (List.length_map _).trans hsize, (slots_map t f).trans hslots, hafter⟩

/-- Where no slot is vacant, insertions vacate none. -/
theorem Extended.vacant_eq_nil (h : Extended s t) (hs : s.vacant = []) : t.vacant = [] := by
  induction h with
  | refl => exact hs
  | @insert t _ a ih =>
    show t.vacant.tail = []
    rw [ih, List.tail_nil]
  | map _ _ ih => exact ih

/-- **The slots stay in the order of insertion if and only if there is room** for what was
inserted. -/
theorem Extended.inOrder_iff (h : Extended s t) :
    t.InOrder ↔ s.InOrder ∧ s.Room (t.size - s.size) := by
  obtain ⟨n, hsize, hslots, -⟩ := h.exists_taken
  rw [hsize, Nat.add_sub_cancel_left, InOrder, hslots, List.pairwise_append]
  exact and_congr_right fun _ => ⟨fun ⟨ha, hb⟩ => ⟨ha, hb⟩, fun hr => ⟨hr.ascending, hr.above⟩⟩

end Ontogram.Slots
