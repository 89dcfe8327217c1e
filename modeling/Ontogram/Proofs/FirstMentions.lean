import Mathlib.Data.List.Induction

/-!
# Lists without repetitions in the order of the first mention

`List.eraseDups` keeps the first of equal items. It is looked at from its end, where an item is
either a repetition or new.

* `eraseDups_append_singleton` — what one more item changes.
* `map_eraseDups` — items that are taken to different ones can be told apart before or after.
-/

namespace Ontogram

variable {α β : Type} [BEq α] [LawfulBEq α] [BEq β] [LawfulBEq β]

/-- The last item of a list is a repetition, or else it stays the last. -/
theorem eraseDups_append_singleton (xs : List α) (x : α) :
    (xs ++ [x]).eraseDups = if x ∈ xs then xs.eraseDups else xs.eraseDups ++ [x] := by
  rw [List.eraseDups_append]
  by_cases hx : x ∈ xs
  · simp [List.removeAll, hx]
  · simp [List.removeAll, hx, List.eraseDups_cons]

/-- The first mentions of what items are taken to are what their first mentions are taken to. -/
theorem map_eraseDups {f : α → β} {xs : List α}
    (hf : ∀ x ∈ xs, ∀ y ∈ xs, f x = f y → x = y) :
    (xs.map f).eraseDups = xs.eraseDups.map f := by
  induction xs using List.reverseRecOn with
  | nil => rfl
  | append_singleton xs x ih =>
    have hmem : f x ∈ xs.map f ↔ x ∈ xs := by
      refine ⟨fun h => ?_, List.mem_map_of_mem⟩
      obtain ⟨y, hy, he⟩ := List.mem_map.1 h
      rwa [← hf y (List.mem_append_left _ hy) x (List.mem_append_right _ List.mem_cons_self) he]
    have hrest := ih fun y hy z hz =>
      hf y (List.mem_append_left _ hy) z (List.mem_append_left _ hz)
    rw [List.map_append, List.map_singleton, eraseDups_append_singleton,
      eraseDups_append_singleton, hrest]
    by_cases hx : x ∈ xs
    · rw [if_pos (hmem.2 hx), if_pos hx]
    · rw [if_neg (mt hmem.1 hx), if_neg hx, List.map_append]
      rfl

end Ontogram
