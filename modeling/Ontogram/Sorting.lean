/-!
# Ordered insertion

An item is placed in a list by what it gives when it is compared with the items in turn: before the
first one that it comes before, in place of the first one that it equals, or at the end. Placing the
items of a list in turn sorts the list.

A comparison that never says `eq` loses nothing. One that says `lt` for some items keeps the order
in which these are, so it gives a stable sort.

* `perm_sort`, `mem_sort` — what is in a sorted list.
* `Orders.pairwise_sort` — the order of a sorted list.
* `filter_sort` — which items keep the order that they had.
-/

namespace Ontogram.Sorting

variable {α β : Type} {order : α → α → Ordering} {x z : α} {xs ys : List α}

/-- Places an item in a list, before what it comes before or in place of what it equals. -/
def place (order : α → α → Ordering) (x : α) : List α → List α
  | [] => [x]
  | y :: ys =>
    match order x y with
    | .lt => x :: y :: ys
    | .eq => x :: ys
    | .gt => y :: place order x ys

/-- Places the items of a list in turn, the last one first. -/
def sort (order : α → α → Ordering) (xs : List α) : List α :=
  xs.foldr (place order) []

theorem sort_cons (order : α → α → Ordering) (x : α) (xs : List α) :
    sort order (x :: xs) = place order x (sort order xs) := rfl

theorem place_cons_of_lt {y : α} (h : order x y = .lt) (ys : List α) :
    place order x (y :: ys) = x :: y :: ys := by
  rw [place, h]

theorem place_cons_of_eq {y : α} (h : order x y = .eq) (ys : List α) :
    place order x (y :: ys) = x :: ys := by
  rw [place, h]

theorem place_cons_of_gt {y : α} (h : order x y = .gt) (ys : List α) :
    place order x (y :: ys) = y :: place order x ys := by
  rw [place, h]

/-! ## What is there -/

theorem mem_of_mem_place (h : z ∈ place order x ys) : z = x ∨ z ∈ ys := by
  induction ys with
  | nil => exact .inl (List.mem_singleton.1 h)
  | cons y ys ih =>
    cases ho : order x y with
    | lt =>
      rw [place_cons_of_lt ho] at h
      exact List.mem_cons.1 h
    | eq =>
      rw [place_cons_of_eq ho] at h
      exact (List.mem_cons.1 h).imp id (List.mem_cons_of_mem y)
    | gt =>
      rw [place_cons_of_gt ho] at h
      rcases List.mem_cons.1 h with rfl | h
      · exact .inr List.mem_cons_self
      · exact (ih h).imp id (List.mem_cons_of_mem y)

/-- What takes the place of its equal alone loses nothing. -/
theorem mem_place (heq : ∀ y, order x y = .eq → x = y) : z ∈ place order x ys ↔ z = x ∨ z ∈ ys := by
  refine ⟨mem_of_mem_place, fun h => ?_⟩
  induction ys with
  | nil => exact List.mem_singleton.2 (h.resolve_right List.not_mem_nil)
  | cons y ys ih =>
    cases ho : order x y with
    | lt =>
      rw [place_cons_of_lt ho]
      exact List.mem_cons.2 h
    | eq =>
      obtain rfl := heq y ho
      rw [place_cons_of_eq ho]
      rcases h with rfl | h
      · exact List.mem_cons_self
      · exact h
    | gt =>
      rw [place_cons_of_gt ho]
      rcases h with h | h
      · exact List.mem_cons_of_mem y (ih (.inl h))
      · rcases List.mem_cons.1 h with rfl | h
        · exact List.mem_cons_self
        · exact List.mem_cons_of_mem y (ih (.inr h))

theorem mem_sort (heq : ∀ x y, order x y = .eq → x = y) : z ∈ sort order xs ↔ z ∈ xs := by
  induction xs with
  | nil => rfl
  | cons x xs ih => rw [sort_cons, mem_place (heq x), ih, List.mem_cons]

/-- What equals nothing is added. -/
theorem perm_place (hne : ∀ y, order x y ≠ .eq) (ys : List α) :
    (place order x ys).Perm (x :: ys) := by
  induction ys with
  | nil => exact List.Perm.refl _
  | cons y ys ih =>
    cases ho : order x y with
    | lt =>
      rw [place_cons_of_lt ho]
    | eq => exact absurd ho (hne y)
    | gt =>
      rw [place_cons_of_gt ho]
      exact (ih.cons y).trans (List.Perm.swap x y ys)

/-- **A sort in which nothing equals another item is a permutation.** -/
theorem perm_sort (hne : ∀ x y, order x y ≠ .eq) (xs : List α) : (sort order xs).Perm xs := by
  induction xs with
  | nil => exact List.Perm.refl _
  | cons x xs ih => exact (perm_place (hne x) _).trans (ih.cons x)

/-! ## In which order it is there -/

/-- Says that a comparison places items in the order of a relation. -/
structure Orders (order : α → α → Ordering) (R : α → α → Prop) : Prop where
  trans : ∀ {x y z}, R x y → R y z → R x z
  of_lt : ∀ {x y}, order x y = .lt → R x y
  of_gt : ∀ {x y}, order x y = .gt → R y x
  /-- An item stands for one that it equals. -/
  of_eq : ∀ {x y z}, order x y = .eq → R y z → R x z

namespace Orders

variable {R : α → α → Prop}

theorem on (h : Orders order R) (f : β → α) :
    Orders (fun x y => order (f x) (f y)) fun x y => R (f x) (f y) where
  trans := h.trans
  of_lt := h.of_lt
  of_gt := h.of_gt
  of_eq := h.of_eq

theorem pairwise_place (h : Orders order R) (hys : ys.Pairwise R) (x : α) :
    (place order x ys).Pairwise R := by
  induction ys with
  | nil => exact List.pairwise_singleton R x
  | cons y ys ih =>
    obtain ⟨hy, hys'⟩ := List.pairwise_cons.1 hys
    cases ho : order x y with
    | lt =>
      rw [place_cons_of_lt ho]
      refine List.pairwise_cons.2 ⟨fun z hz => ?_, hys⟩
      rcases List.mem_cons.1 hz with rfl | hz
      · exact h.of_lt ho
      · exact h.trans (h.of_lt ho) (hy z hz)
    | eq =>
      rw [place_cons_of_eq ho]
      exact List.pairwise_cons.2 ⟨fun z hz => h.of_eq ho (hy z hz), hys'⟩
    | gt =>
      rw [place_cons_of_gt ho]
      refine List.pairwise_cons.2 ⟨fun z hz => ?_, ih hys'⟩
      rcases mem_of_mem_place hz with rfl | hz
      · exact h.of_gt ho
      · exact hy z hz

/-- **A sorted list is in order.** -/
theorem pairwise_sort (h : Orders order R) (xs : List α) : (sort order xs).Pairwise R := by
  induction xs with
  | nil => exact List.Pairwise.nil
  | cons x xs ih => exact h.pairwise_place ih x

end Orders

/-- What comes after all items is placed last. -/
theorem place_of_forall_gt (h : ∀ y ∈ ys, order x y = .gt) : place order x ys = ys ++ [x] := by
  induction ys with
  | nil => rfl
  | cons y ys ih =>
    rw [place_cons_of_gt (h y List.mem_cons_self), ih fun z hz => h z (List.mem_cons_of_mem y hz)]
    rfl

theorem filter_place {p : α → Bool} (hne : ∀ y, order x y ≠ .eq)
    (hlt : ∀ y, p x = true → p y = true → order x y = .lt) (ys : List α) :
    (place order x ys).filter p = (x :: ys).filter p := by
  induction ys with
  | nil => rfl
  | cons y ys ih =>
    cases ho : order x y with
    | lt => rw [place_cons_of_lt ho]
    | eq => exact absurd ho (hne y)
    | gt =>
      rw [place_cons_of_gt ho, List.filter_cons, ih]
      -- An item that stays in front does not come after the new one, so `p` does not hold of both.
      cases hx : p x with
      | false => simp [hx, List.filter_cons]
      | true =>
        cases hy : p y with
        | false => simp [hx, hy]
        | true =>
          rw [hlt y hx hy] at ho
          cases ho

/-- **Items each of which is placed before the others keep their order.** -/
theorem filter_sort {p : α → Bool} (hne : ∀ x y, order x y ≠ .eq)
    (hlt : ∀ x y, p x = true → p y = true → order x y = .lt) (xs : List α) :
    (sort order xs).filter p = xs.filter p := by
  induction xs with
  | nil => rfl
  | cons x xs ih =>
    rw [sort_cons, filter_place (hne x) (hlt x), List.filter_cons, List.filter_cons, ih]

/-! ## Rewriting the items -/

theorem map_place {order' : β → β → Ordering} (f : α → β)
    (h : ∀ y, order' (f x) (f y) = order x y) (ys : List α) :
    (place order x ys).map f = place order' (f x) (ys.map f) := by
  induction ys with
  | nil => rfl
  | cons y ys ih =>
    rw [List.map_cons]
    cases ho : order x y with
    | lt =>
      rw [place_cons_of_lt ho, place_cons_of_lt ((h y).trans ho)]
      rfl
    | eq =>
      rw [place_cons_of_eq ho, place_cons_of_eq ((h y).trans ho)]
      rfl
    | gt => rw [place_cons_of_gt ho, place_cons_of_gt ((h y).trans ho), List.map_cons, ih]

theorem map_sort (order : α → α → Ordering) (order' : β → β → Ordering) (f : α → β)
    (h : ∀ x y, order' (f x) (f y) = order x y) (xs : List α) :
    (sort order xs).map f = sort order' (xs.map f) := by
  induction xs with
  | nil => rfl
  | cons x xs ih => rw [sort_cons, map_place f (h x), ih, List.map_cons, sort_cons]

end Ontogram.Sorting
