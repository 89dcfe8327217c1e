import Ontogram.Sorting

/-!
# Slots

A container that hands out numbered slots and never renumbers a value. A vacated slot is used again,
the last one vacated first; only when none is vacant is a new number handed out.

The live values are kept most recently inserted first, which is the order in which values that go
away together are vacated. Reading them in the order of their slots is `toList`.

The two proof fields say that a slot is either live or vacant and that the next new number is
unused, so `insert` never lands on a live slot.

* `next_fresh` — the next slot holds no value.
* `eraseWhere_perm` — a removal neither loses a slot nor makes one.
* `get?_insert`, `get?_erase`, `get?_update` — what a slot holds after each change.
* `entries_sorted` — the entries are listed by strictly ascending slot.
* `toList_insert`, `toList_map` — what is listed after a change.
-/

namespace Ontogram

/-- Values in numbered slots. -/
@[ext]
structure Slots (α : Type) where
  /-- The values with their slots, most recently inserted first. -/
  live : List (Nat × α)
  /-- The vacated slots, most recently vacated first. -/
  vacant : List Nat
  /-- The next slot that was never used. -/
  bound : Nat
  nodup : (live.map Prod.fst ++ vacant).Nodup
  lt_bound : ∀ i ∈ live.map Prod.fst ++ vacant, i < bound

namespace Slots

variable {α : Type}

/-- The container without values. -/
def empty : Slots α where
  live := []
  vacant := []
  bound := 0
  nodup := by simp
  lt_bound := by simp

/-- The slot the next inserted value takes. -/
def next (s : Slots α) : Nat :=
  s.vacant.headD s.bound

/-- The next slot is neither live nor among the vacant ones that stay vacant. -/
theorem next_fresh (s : Slots α) : s.next ∉ s.live.map Prod.fst ++ s.vacant.tail := by
  have hn := s.nodup
  have hb := s.lt_bound
  unfold next
  cases hv : s.vacant with
  | nil =>
    intro h
    rw [hv] at hb
    have := hb s.bound (by simpa using h)
    omega
  | cons i rest =>
    rw [hv] at hn
    intro h
    have hm : (s.live.map Prod.fst ++ i :: rest).Perm (i :: (s.live.map Prod.fst ++ rest)) :=
      List.perm_middle
    exact (List.nodup_cons.1 (hm.nodup_iff.1 hn)).1 h

theorem tail_nodup (s : Slots α) : (s.live.map Prod.fst ++ s.vacant.tail).Nodup :=
  s.nodup.sublist (List.Sublist.append (List.Sublist.refl _) (List.tail_sublist _))

/-- Puts a value into the next slot. -/
def insert (s : Slots α) (a : α) : Slots α where
  live := (s.next, a) :: s.live
  vacant := s.vacant.tail
  bound := max s.bound (s.next + 1)
  nodup := by
    simp only [List.map_cons, List.cons_append]
    exact List.nodup_cons.2 ⟨s.next_fresh, s.tail_nodup⟩
  lt_bound := by
    intro i hi
    simp only [List.map_cons, List.cons_append, List.mem_cons] at hi
    rcases hi with rfl | hi
    · omega
    · have := s.lt_bound i (by
        simp only [List.mem_append] at hi ⊢
        exact hi.imp id List.mem_of_mem_tail)
      omega

/-- The slots after a removal are the slots before it, in another order. -/
theorem eraseWhere_perm (s : Slots α) (p : Nat → α → Bool) :
    ((s.live.filter fun x => !p x.1 x.2).map Prod.fst
        ++ (((s.live.filter fun x => p x.1 x.2).map Prod.fst).reverse ++ s.vacant)).Perm
      (s.live.map Prod.fst ++ s.vacant) := by
  rw [← List.append_assoc]
  refine List.Perm.append_right _ ?_
  refine (List.Perm.append_left _ (List.reverse_perm _)).trans ?_
  rw [← List.map_append]
  refine List.Perm.map _ ?_
  exact List.perm_append_comm.trans (List.filter_append_perm _ _)

/-- Vacates the slots of the values that satisfy `p`, the most recently inserted one first. -/
def eraseWhere (s : Slots α) (p : Nat → α → Bool) : Slots α where
  live := s.live.filter fun x => !p x.1 x.2
  vacant := ((s.live.filter fun x => p x.1 x.2).map Prod.fst).reverse ++ s.vacant
  bound := s.bound
  nodup := (s.eraseWhere_perm p).nodup_iff.2 s.nodup
  lt_bound := fun i hi => s.lt_bound i ((s.eraseWhere_perm p).mem_iff.1 hi)

/-- Vacates a slot. -/
def erase (s : Slots α) (slot : Nat) : Slots α :=
  s.eraseWhere fun i _ => i == slot

/-- Rewrites every value in its slot. -/
def map (s : Slots α) (f : Nat → α → α) : Slots α where
  live := s.live.map fun x => (x.1, f x.1 x.2)
  vacant := s.vacant
  bound := s.bound
  nodup := by simpa [List.map_map, Function.comp_def] using s.nodup
  lt_bound := by simpa [List.map_map, Function.comp_def] using s.lt_bound

/-- Rewrites the value of a slot. -/
def update (s : Slots α) (slot : Nat) (f : α → α) : Slots α :=
  s.map fun i a => if i = slot then f a else a

/-- The value of a slot. -/
def get? (s : Slots α) (slot : Nat) : Option α :=
  (s.live.find? fun x => x.1 == slot).map Prod.snd

/-- Compares two entries by their slots. No two count as equal. -/
def bySlot (x y : Nat × α) : Ordering :=
  if x.1 < y.1 then .lt else .gt

/-- The live values with their slots, in the order of the slots. -/
def entries (s : Slots α) : List (Nat × α) :=
  Sorting.sort bySlot s.live

/-- The live values in the order of their slots. -/
def toList (s : Slots α) : List α :=
  s.entries.map Prod.snd

/-- The number of live values. -/
def size (s : Slots α) : Nat :=
  s.live.length

/-! ## What a slot holds -/

/-- In a list without repeated slots, a slot has one value at most. -/
theorem value_unique {l : List (Nat × α)} (h : (l.map Prod.fst).Nodup) {i : Nat} {a b : α}
    (ha : (i, a) ∈ l) (hb : (i, b) ∈ l) : a = b := by
  induction l with
  | nil => exact absurd ha List.not_mem_nil
  | cons x xs ih =>
    rw [List.map_cons, List.nodup_cons] at h
    rcases List.mem_cons.1 ha with rfl | ha'
    · rcases List.mem_cons.1 hb with hb | hb
      · exact (congrArg Prod.snd hb).symm
      · exact absurd (List.mem_map.2 ⟨_, hb, rfl⟩) h.1
    · rcases List.mem_cons.1 hb with rfl | hb
      · exact absurd (List.mem_map.2 ⟨_, ha', rfl⟩) h.1
      · exact ih h.2 ha' hb

theorem live_nodup (s : Slots α) : (s.live.map Prod.fst).Nodup :=
  (List.nodup_append.1 s.nodup).1

theorem get?_eq_some {s : Slots α} {i : Nat} {a : α} : s.get? i = some a ↔ (i, a) ∈ s.live := by
  unfold get?
  rw [Option.map_eq_some_iff]
  constructor
  · rintro ⟨⟨j, b⟩, hf, rfl⟩
    have hj : j = i := by simpa using List.find?_some hf
    exact hj ▸ List.mem_of_find?_eq_some hf
  · intro h
    cases hf : s.live.find? fun x => x.1 == i with
    | none => exact absurd (List.find?_eq_none.1 hf _ h) (by simp)
    | some x =>
      obtain ⟨j, b⟩ := x
      have hj : j = i := by simpa using List.find?_some hf
      subst hj
      exact ⟨_, rfl, value_unique s.live_nodup (List.mem_of_find?_eq_some hf) h⟩

theorem get?_eq_iff {s : Slots α} {i : Nat} {o : Option α} :
    s.get? i = o ↔ ∀ a, (i, a) ∈ s.live ↔ o = some a := by
  constructor
  · rintro rfl a
    exact get?_eq_some.symm
  · intro h
    exact Option.ext fun a => get?_eq_some.trans (h a)

@[simp]
theorem get?_empty (i : Nat) : (empty : Slots α).get? i = none := rfl

theorem get?_next (s : Slots α) : s.get? s.next = none := by
  refine get?_eq_iff.2 fun a => iff_of_false (fun h => s.next_fresh ?_) nofun
  exact List.mem_append_left _ (List.mem_map_of_mem h)

@[grind =]
theorem get?_insert (s : Slots α) (a : α) (i : Nat) :
    (s.insert a).get? i = if i = s.next then some a else s.get? i := by
  unfold get? insert
  by_cases hi : i = s.next
  · subst hi
    simp
  · rw [if_neg hi, List.find?_cons_of_neg (by simpa using Ne.symm hi)]

@[simp, grind =]
theorem get?_eraseWhere_eq_some {s : Slots α} {p : Nat → α → Bool} {i : Nat} {a : α} :
    (s.eraseWhere p).get? i = some a ↔ s.get? i = some a ∧ p i a = false := by
  rw [get?_eq_some, get?_eq_some]
  unfold eraseWhere
  rw [List.mem_filter, Bool.not_eq_true']

@[grind =]
theorem get?_erase (s : Slots α) (j i : Nat) :
    (s.erase j).get? i = if i = j then none else s.get? i := by
  refine Option.ext fun a => ?_
  rw [erase, get?_eraseWhere_eq_some]
  by_cases hi : i = j <;> simp [hi]

@[grind =]
theorem get?_map (s : Slots α) (f : Nat → α → α) (i : Nat) :
    (s.map f).get? i = (s.get? i).map (f i) := by
  refine get?_eq_iff.2 fun a => ?_
  unfold map
  simp only [List.mem_map, Prod.mk.injEq, Option.map_eq_some_iff, get?_eq_some]
  constructor
  · rintro ⟨⟨_, b⟩, h, rfl, rfl⟩
    exact ⟨b, h, rfl⟩
  · rintro ⟨b, h, rfl⟩
    exact ⟨(i, b), h, rfl, rfl⟩

@[grind =]
theorem get?_update (s : Slots α) (j : Nat) (f : α → α) (i : Nat) :
    (s.update j f).get? i = if i = j then (s.get? i).map f else s.get? i := by
  rw [update, get?_map]
  by_cases hi : i = j <;> simp [hi]

/-! ## Rewriting every value -/

theorem map_congr {s : Slots α} {f f' : Nat → α → α}
    (h : ∀ i a, s.get? i = some a → f i a = f' i a) : s.map f = s.map f' := by
  refine Slots.ext (List.map_congr_left fun x hx => ?_) rfl rfl
  rw [h x.1 x.2 (get?_eq_some.2 hx)]

theorem map_map (s : Slots α) (f f' : Nat → α → α) :
    (s.map f).map f' = s.map fun i a => f' i (f i a) :=
  Slots.ext List.map_map rfl rfl

theorem map_id (s : Slots α) : (s.map fun _ a => a) = s :=
  Slots.ext (List.map_id s.live) rfl rfl

/-! ## The order of the slots -/

theorem bySlot_ne_eq (x y : Nat × α) : bySlot x y ≠ .eq := by
  unfold bySlot
  split <;> exact nofun

theorem bySlot_eq_gt {x y : Nat × α} : bySlot x y = .gt ↔ y.1 ≤ x.1 := by
  unfold bySlot
  split
  · exact iff_of_false nofun (by omega)
  · exact iff_of_true rfl (by omega)

theorem orders_bySlot : Sorting.Orders (bySlot (α := α)) fun x y => x.1 ≤ y.1 where
  trans := Nat.le_trans
  of_lt {x y} h := by
    unfold bySlot at h
    split at h
    · next hlt => exact Nat.le_of_lt hlt
    · cases h
  of_gt := bySlot_eq_gt.1
  of_eq h := absurd h (bySlot_ne_eq _ _)

theorem entries_perm (s : Slots α) : s.entries.Perm s.live :=
  Sorting.perm_sort bySlot_ne_eq s.live

theorem mem_entries {s : Slots α} {i : Nat} {a : α} : (i, a) ∈ s.entries ↔ s.get? i = some a :=
  s.entries_perm.mem_iff.trans get?_eq_some.symm

theorem length_toList (s : Slots α) : s.toList.length = s.size :=
  (List.length_map _).trans s.entries_perm.length_eq

theorem mem_toList {s : Slots α} {a : α} : a ∈ s.toList ↔ ∃ i, s.get? i = some a := by
  unfold toList
  rw [List.mem_map]
  constructor
  · rintro ⟨⟨i, b⟩, h, rfl⟩
    exact ⟨i, mem_entries.1 h⟩
  · rintro ⟨i, h⟩
    exact ⟨(i, a), mem_entries.2 h, rfl⟩

/-- **The entries are listed by strictly ascending slot.** -/
theorem entries_sorted (s : Slots α) : s.entries.Pairwise fun a b => a.1 < b.1 := by
  have hne : s.entries.Pairwise fun a b => a.1 ≠ b.1 :=
    List.pairwise_map.1 ((s.entries_perm.map Prod.fst).nodup_iff.2 s.live_nodup)
  exact (orders_bySlot.pairwise_sort s.live).imp₂ (fun _ _ => Nat.lt_of_le_of_ne) hne

/-! ## The list of the values -/

/-- Where no slot is vacant, a new value is listed last. -/
theorem toList_insert {s : Slots α} (hs : s.vacant = []) (a : α) :
    (s.insert a).toList = s.toList ++ [a] := by
  have hnext : s.next = s.bound := by rw [next, hs]; rfl
  have hlast : ∀ y ∈ s.entries, bySlot (s.next, a) y = .gt := by
    intro y hy
    rw [bySlot_eq_gt, hnext]
    exact Nat.le_of_lt (s.lt_bound y.1 (List.mem_append_left _
      (List.mem_map_of_mem (s.entries_perm.mem_iff.1 hy))))
  have hentries : (s.insert a).entries = s.entries ++ [(s.next, a)] :=
    Sorting.place_of_forall_gt hlast
  rw [toList, hentries, List.map_append]
  rfl

theorem entries_map (s : Slots α) (f : α → α) :
    (s.map fun _ a => f a).entries = s.entries.map fun x => (x.1, f x.2) :=
  (Sorting.map_sort bySlot bySlot (fun x => (x.1, f x.2)) (fun _ _ => rfl) s.live).symm

/-- Rewriting the values rewrites their list. -/
theorem toList_map (s : Slots α) (f : α → α) :
    (s.map fun _ a => f a).toList = s.toList.map f := by
  rw [toList, entries_map, List.map_map, toList, List.map_map]
  rfl

end Slots

end Ontogram
