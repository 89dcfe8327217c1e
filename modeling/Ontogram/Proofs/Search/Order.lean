import Mathlib.Data.Nat.Find
import Ontogram.Proofs.Search

/-!
# A breadth-first search finds what is nearer first

How far an item is from the start is mostly said without a number for the distance: `Within n x`
holds if `n` steps are enough to get to `x`, and `IsDistance n x` if no fewer are. The visits of a
search, done or waiting, are in the order of distance, and what was found is at most one step
farther than anything that waits.

* `exists_isDistance` — what is reached has a distance.
* `reached_sorted` — nothing is found after an item that is farther.
* `Nearer.precedes` — of two items that are found, the nearer one is found first.
-/

namespace Ontogram

/-- An item stands before another in a list. -/
def Precedes {α : Type} (l : List α) (a b : α) : Prop :=
  [a, b].Sublist l

instance {α : Type} [DecidableEq α] (l : List α) (a b : α) : Decidable (Precedes l a b) :=
  inferInstanceAs (Decidable ([a, b].Sublist l))

namespace Precedes

variable {α : Type} {l : List α} {a b c : α}

theorem mem_left (h : Precedes l a b) : a ∈ l :=
  h.subset List.mem_cons_self

theorem mem_right (h : Precedes l a b) : b ∈ l :=
  h.subset (List.mem_cons_of_mem a List.mem_cons_self)

/-- Of two items of a list one stands before the other. -/
theorem total (ha : a ∈ l) (hb : b ∈ l) (hne : a ≠ b) : Precedes l a b ∨ Precedes l b a := by
  obtain ⟨s, t, rfl⟩ := List.append_of_mem ha
  rcases List.mem_append.1 hb with hb | hb
  · refine Or.inr ((List.singleton_sublist.2 hb).append ?_)
    exact (List.nil_sublist t).cons_cons a
  · rcases List.mem_cons.1 hb with rfl | hb
    · exact absurd rfl hne
    · have hpair := (List.singleton_sublist.2 hb).cons_cons a
      exact Or.inl (hpair.trans (List.sublist_append_right s _))

/-- In a list without repetitions only one of two items stands before the other. -/
theorem asymm (hl : l.Nodup) (hab : Precedes l a b) : ¬Precedes l b a := by
  intro hba
  induction l with
  | nil => cases hab
  | cons c l ih =>
    rw [List.nodup_cons] at hl
    cases hab with
    | cons _ hab =>
      cases hba with
      | cons _ hba => exact ih hl.2 hab hba
      | cons_cons _ _ => exact hl.1 (hab.subset (by simp))
    | cons_cons _ hb =>
      cases hba with
      | cons _ hba => exact hl.1 (hba.subset (by simp))
      | cons_cons _ _ => exact hl.1 (List.singleton_sublist.1 hb)

theorem trans_of_nodup (hl : l.Nodup) (hab : Precedes l a b) (hbc : Precedes l b c) :
    Precedes l a c := by
  induction l with
  | nil => cases hab
  | cons x l ih =>
    rw [List.nodup_cons] at hl
    cases hbc with
    | cons_cons _ _ =>
      cases hab with
      | cons _ hab => exact absurd (mem_right hab) hl.1
      | cons_cons _ hx => exact absurd (List.singleton_sublist.1 hx) hl.1
    | cons _ hbc =>
      cases hab with
      | cons _ hab => exact (ih hl.2 hab hbc).cons x
      | cons_cons _ _ => exact (List.singleton_sublist.2 (mem_right hbc)).cons_cons _

/-- What holds of an item if it holds of those before it holds of all items. -/
theorem induction (hl : l.Nodup) {P : α → Prop}
    (step : ∀ a ∈ l, (∀ b, Precedes l b a → P b) → P a) : ∀ a ∈ l, P a := by
  induction l with
  | nil => exact fun a ha => absurd ha List.not_mem_nil
  | cons x l ih =>
    rw [List.nodup_cons] at hl
    have hx : P x := by
      refine step x List.mem_cons_self fun b hb => ?_
      cases hb with
      | cons _ hb => exact absurd (mem_right hb) hl.1
      | cons_cons _ hx => exact absurd (List.singleton_sublist.1 hx) hl.1
    have hrest : ∀ a ∈ l, P a := by
      refine ih hl.2 fun a ha h => step a (List.mem_cons_of_mem x ha) fun b hb => ?_
      cases hb with
      | cons _ hb => exact h b hb
      | cons_cons _ _ => exact hx
    exact List.forall_mem_cons.2 ⟨hx, hrest⟩

/-- An item stands before another among those with a property if it stands before it at all. -/
theorem filter_iff {p : α → Bool} (ha : p a = true) (hb : p b = true) :
    Precedes (l.filter p) a b ↔ Precedes l a b := by
  refine ⟨fun h => h.trans List.filter_sublist, fun h => ?_⟩
  have hf := h.filter p
  rwa [List.filter_cons_of_pos ha, List.filter_cons_of_pos hb] at hf

/-- An item stands before another among the images of some if the one it comes from does. -/
theorem exists_of_map {β : Type} {f : β → α} {l : List β} (h : Precedes (l.map f) a b) :
    ∃ x y, Precedes l x y ∧ f x = a ∧ f y = b := by
  obtain ⟨pair, hpair, heq⟩ := List.sublist_map_iff.1 h
  obtain ⟨x, y, rfl⟩ : ∃ x y, pair = [x, y] :=
    List.length_eq_two.1 (by simpa using (congrArg List.length heq).symm)
  obtain ⟨ha, hb⟩ : a = f x ∧ b = f y := by simpa using heq
  exact ⟨x, y, hpair, ha.symm, hb.symm⟩

/-- What holds of items in the order of the list holds of an item and one behind it. -/
theorem pairwise {R : α → α → Prop} (h : Precedes l a b) (hl : l.Pairwise R) : R a b :=
  List.pairwise_pair.1 (hl.sublist h)

end Precedes

namespace Search

variable {α : Type} {next : α → List α} {start : α} {x y : α} {n : Nat}

/-- So many steps are enough to get from the start to an item. -/
inductive Within (next : α → List α) (start : α) : Nat → α → Prop where
  | start (n : Nat) : Within next start n start
  | step {n : Nat} {x y : α} : Within next start n x → y ∈ next x → Within next start (n + 1) y

theorem Within.succ (h : Within next start n x) : Within next start (n + 1) x := by
  induction h with
  | start n => exact .start (n + 1)
  | step _ hy ih => exact .step ih hy

/-- The items that so many steps are enough for, some of them more than once. -/
def ball (next : α → List α) (start : α) : Nat → List α
  | 0 => [start]
  | n + 1 => start :: (ball next start n).flatMap next

theorem mem_ball : x ∈ ball next start n ↔ Within next start n x := by
  constructor
  · intro hx
    induction n generalizing x with
    | zero => exact List.mem_singleton.1 hx ▸ .start 0
    | succ n ih =>
      rcases List.mem_cons.1 hx with rfl | hx
      · exact .start (n + 1)
      · obtain ⟨y, hy, hxy⟩ := List.mem_flatMap.1 hx
        exact .step (ih hy) hxy
  · intro h
    induction h with
    | start n => cases n <;> exact List.mem_cons_self
    | step _ hy ih => exact List.mem_cons_of_mem _ (List.mem_flatMap.2 ⟨_, ih, hy⟩)

instance [DecidableEq α] : Decidable (Within next start n x) :=
  decidable_of_iff _ mem_ball

/-- So many steps, and no fewer, are enough to get from the start to an item. -/
def IsDistance (next : α → List α) (start : α) (n : Nat) (x : α) : Prop :=
  Within next start n x ∧ ∀ m, Within next start m x → n ≤ m

/-- What is reached has a distance. -/
theorem exists_isDistance (h : Reaches next start x) : ∃ n, IsDistance next start n x := by
  have hwithin : ∃ n, Within next start n x := by
    induction h with
    | refl => exact ⟨0, .start 0⟩
    | tail _ hy ih =>
      obtain ⟨n, hn⟩ := ih
      exact ⟨n + 1, .step hn hy⟩
  classical
  exact ⟨Nat.find hwithin, Nat.find_spec hwithin, fun _ hm => Nat.find_min' hwithin hm⟩

/-- Some number of steps is enough for the first item and not for the second. -/
def Nearer (next : α → List α) (start x y : α) : Prop :=
  ∃ n, Within next start n x ∧ ¬Within next start n y

/-- The visits are in the order of distance, and none is more than one step farther than one that
waits. -/
structure Layered (next : α → List α) (start : α) (done queue : List (Visit α)) : Prop where
  sorted : (items (done ++ queue)).Pairwise fun x y =>
    ∀ n, Within next start n y → Within next start n x
  near : ∀ q ∈ items queue, ∀ x ∈ items (done ++ queue),
    ∀ n, Within next start n q → Within next start (n + 1) x

theorem layered_start : Layered next start [] [⟨start, none⟩] where
  sorted := List.pairwise_singleton _ _
  near := by
    intro q _ x hx n _
    rw [List.mem_singleton.1 hx]
    exact .start (n + 1)

section Step

variable {done queue : List (Visit α)} {v : Visit α}

/-- The head of the queue is the nearest of all items that are not done. -/
theorem within_head (hp : Progress next start done (v :: queue))
    (hl : Layered next start done (v :: queue)) (hy : y ∉ items done) (h : Within next start n y) :
    Within next start n v.item := by
  have hwaiting : ∀ n y, y ∈ items (v :: queue) → Within next start n y →
      Within next start n v.item := by
    intro n y hy h
    have hsorted := hl.sorted
    rw [items, List.map_append, List.pairwise_append] at hsorted
    rcases List.mem_cons.1 hy with rfl | hy
    · exact h
    · exact (List.pairwise_cons.1 hsorted.2.1).1 y hy n h
  have hmem : ∀ {z}, z ∈ items (done ++ v :: queue) → z ∉ items done → z ∈ items (v :: queue) := by
    intro z hz hn
    rw [items, List.map_append] at hz
    exact (List.mem_append.1 hz).resolve_left hn
  induction h with
  | start n => exact hwaiting n start (hmem hp.start_mem hy) (.start n)
  | @step n x y hx hxy ih =>
    by_cases hd : x ∈ items done
    · -- What a visit that is done leads to was found.
      exact hwaiting (n + 1) y (hmem (hp.closed x hd y hxy) hy) (.step hx hxy)
    · exact (ih hd).succ

/-- An item that was not found yet is farther than the head of the queue. -/
theorem exists_within_head (hp : Progress next start done (v :: queue))
    (hl : Layered next start done (v :: queue)) (hy : y ∉ items (done ++ v :: queue))
    (h : Within next start n y) : ∃ m, n = m + 1 ∧ Within next start m v.item := by
  cases h with
  | start n => exact absurd hp.start_mem hy
  | @step m x y hx hxy =>
    refine ⟨m, rfl, within_head hp hl (fun hd => ?_) hx⟩
    exact hy (hp.closed x hd y hxy)

variable [DecidableEq α]

theorem Layered.step (hp : Progress next start done (v :: queue))
    (hl : Layered next start done (v :: queue)) :
    Layered next start (done ++ [v])
      (queue ++ discover v.item (next v.item) (done ++ v :: queue)) := by
  have hfound : ∀ y ∈ items (discover v.item (next v.item) (done ++ v :: queue)),
      y ∈ next v.item ∧ y ∉ items (done ++ v :: queue) := by
    intro y hy
    obtain ⟨w, hw, rfl⟩ := List.mem_map.1 hy
    exact ⟨mem_of_mem_discover hw, notMem_of_mem_discover hp.nodup hw⟩
  generalize discover v.item (next v.item) (done ++ v :: queue) = found at hfound
  have hsplit : done ++ [v] ++ (queue ++ found) = (done ++ v :: queue) ++ found := by simp
  have hv : v.item ∈ items (v :: queue) := List.mem_cons_self
  -- Whatever waits now is no nearer than the head was, so what was found is near it as well.
  have hnear : ∀ q ∈ items (queue ++ found), ∀ n, Within next start n q →
      Within next start n v.item := by
    intro q hq n h
    rw [items, List.map_append] at hq
    rcases List.mem_append.1 hq with hq | hq
    · have hsorted := hl.sorted
      rw [items, List.map_append, List.pairwise_append] at hsorted
      exact (List.pairwise_cons.1 hsorted.2.1).1 q hq n h
    · obtain ⟨m, rfl, hm⟩ := exists_within_head hp hl (hfound q hq).2 h
      exact hm.succ
  constructor
  · rw [hsplit, items, List.map_append, List.pairwise_append]
    refine ⟨hl.sorted, ?_, ?_⟩
    · refine List.pairwise_of_forall_mem_list fun x hx y hy n h => ?_
      obtain ⟨m, rfl, hm⟩ := exists_within_head hp hl (hfound y hy).2 h
      exact .step hm (hfound x hx).1
    · intro x hx y hy n h
      obtain ⟨m, rfl, hm⟩ := exists_within_head hp hl (hfound y hy).2 h
      exact hl.near _ hv x hx m hm
  · intro q hq x hx n h
    rw [hsplit, items, List.map_append] at hx
    rcases List.mem_append.1 hx with hx | hx
    · exact hl.near _ hv x hx n (hnear q hq n h)
    · exact .step (hnear q hq n h) (hfound x hx).1

end Step

variable [DecidableEq α]

theorem exists_layered_visits (next : α → List α) (size : Nat) (start : α) :
    ∃ done queue, visits next size start = done ++ queue ∧ Progress next start done queue ∧
      Layered next start done queue ∧ (queue = [] ∨ done.length = size) := by
  obtain ⟨done, queue, he, ⟨hp, hl⟩, hq⟩ := exists_explore
    (I := fun done queue => Progress next start done queue ∧ Layered next start done queue)
    (fun hi => ⟨hi.1.step, hi.2.step hi.1⟩) size ⟨progress_start, layered_start⟩
  exact ⟨done, queue, he, hp, hl, hq⟩

/-- **Nothing is found after an item that is farther.** -/
theorem reached_sorted (next : α → List α) (size : Nat) (start : α) :
    (reached next size start).Pairwise fun x y =>
      ∀ n, Within next start n y → Within next start n x := by
  obtain ⟨done, queue, he, -, hl, -⟩ := exists_layered_visits next size start
  rw [reached, he]
  exact hl.sorted

/-- **Of two items that are found the nearer one is found first.** -/
theorem Nearer.precedes {size : Nat} (h : Nearer next start x y)
    (hx : x ∈ reached next size start) (hy : y ∈ reached next size start) :
    Precedes (reached next size start) x y := by
  obtain ⟨n, hn, hn'⟩ := h
  have hne : x ≠ y := by
    rintro rfl
    exact hn' hn
  refine (Precedes.total hx hy hne).resolve_right fun hyx => ?_
  exact hn' (hyx.pairwise (reached_sorted next size start) n hn)

end Search

end Ontogram
