import Ontogram.Proofs.Search

/-!
# Trails

A trail goes from the start to the goal by single steps. The visits remember where each item was
first reached from, and that item was visited before, so following them back ends at the start.

* `Linked.exists_traced` — what following the visits back leads through.
* `trail?_isTrail` — what a search gives as a trail is one.
-/

namespace Ontogram.Search

variable {α : Type} {next : α → List α} {start goal : α}

/-- The items on a way from the start by single steps, the goal last. -/
inductive IsTrail (next : α → List α) (start : α) : α → List α → Prop where
  | start : IsTrail next start start [start]
  | step {x y : α} {trail : List α} : IsTrail next start x trail → y ∈ next x →
      IsTrail next start y (trail ++ [y])

namespace IsTrail

variable {trail : List α}

theorem start_mem (h : IsTrail next start goal trail) : start ∈ trail := by
  induction h with
  | start => exact List.mem_singleton.2 rfl
  | step _ _ ih => exact List.mem_append_left _ ih

theorem reaches (h : IsTrail next start goal trail) : Reaches next start goal := by
  induction h with
  | start => exact Relation.ReflTransGen.refl
  | step _ hy ih => exact ih.tail hy

/-- A trail of two items or more takes a step. -/
theorem transGen (h : IsTrail next start goal trail) (hl : 2 ≤ trail.length) :
    Relation.TransGen (fun a b => b ∈ next a) start goal := by
  cases h with
  | start => exact absurd hl (Nat.not_succ_le_self 1)
  | step h hy => exact Relation.TransGen.tail' h.reaches hy

theorem eq_concat (h : IsTrail next start goal trail) : ∃ init, trail = init ++ [goal] := by
  cases h with
  | start => exact ⟨[], rfl⟩
  | step h _ => exact ⟨_, rfl⟩

/-- A trail of two items or more ends with a step from the last item but one to the goal. -/
theorem exists_last_step (h : IsTrail next start goal trail) (hl : 2 ≤ trail.length) :
    ∃ init x, trail = init ++ [x] ++ [goal] ∧ goal ∈ next x := by
  cases h with
  | start => exact absurd hl (Nat.not_succ_le_self 1)
  | step h hy =>
    obtain ⟨init, rfl⟩ := h.eq_concat
    exact ⟨init, _, rfl, hy⟩

end IsTrail

/-- Every visit but that of the start comes from an item that was visited before. -/
inductive Linked (next : α → List α) (start : α) : List (Visit α) → Prop where
  | start : Linked next start [⟨start, none⟩]
  | visit {vs : List (Visit α)} {x y : α} : Linked next start vs → x ∈ items vs → y ∈ next x →
      Linked next start (vs ++ [⟨y, some x⟩])

/-- The first visit is that of the start, and any other takes a step. -/
theorem Linked.eq_start_or_mem_next {vs : List (Visit α)} (h : Linked next start vs) {v : Visit α}
    (hv : v ∈ vs) : v = ⟨start, none⟩ ∨ ∃ x, v.via = some x ∧ v.item ∈ next x := by
  induction h with
  | start => exact Or.inl (List.mem_singleton.1 hv)
  | @visit vs x y _ _ hy ih =>
    rcases List.mem_append.1 hv with hv | hv
    · exact ih hv
    · rw [List.mem_singleton.1 hv]
      exact Or.inr ⟨x, rfl, hy⟩

/-- The items that following the visits back from an item leads through, that item last. -/
inductive Traced (vs : List (Visit α)) : α → List α → Prop where
  | start {x : α} : ⟨x, none⟩ ∈ vs → Traced vs x [x]
  | step {x y : α} {trail : List α} : Traced vs x trail → ⟨y, some x⟩ ∈ vs →
      Traced vs y (trail ++ [y])

theorem Traced.append {vs : List (Visit α)} {trail : List α} (h : Traced vs goal trail)
    (later : List (Visit α)) : Traced (vs ++ later) goal trail := by
  induction h with
  | start hx => exact .start (List.mem_append_left later hx)
  | step _ hy ih => exact .step ih (List.mem_append_left later hy)

/-- Visits that are linked trace a trail. -/
theorem Traced.isTrail {vs : List (Visit α)} {trail : List α} (h : Traced vs goal trail)
    (hl : Linked next start vs) : IsTrail next start goal trail := by
  induction h with
  | @start x hx =>
    rcases hl.eq_start_or_mem_next hx with hs | ⟨y, hy, -⟩
    · cases hs
      exact .start
    · cases hy
  | @step x y trail _ hy ih =>
    rcases hl.eq_start_or_mem_next hy with hs | ⟨x', hx', hmem⟩
    · cases hs
    · cases hx'
      exact ih.step hmem

variable [DecidableEq α]

theorem Linked.append_discover {seen : List (Visit α)} (h : Linked next start seen) {via : α}
    (hv : via ∈ items seen) {xs : List α} (hxs : ∀ x ∈ xs, x ∈ next via) :
    Linked next start (seen ++ discover via xs seen) := by
  induction xs generalizing seen with
  | nil => rwa [discover, List.append_nil]
  | cons x xs ih =>
    have hrest : ∀ y ∈ xs, y ∈ next via := fun y hy => hxs y (List.mem_cons_of_mem x hy)
    unfold discover
    split
    · exact ih h hv hrest
    · have hvisit := h.visit hv (hxs x List.mem_cons_self)
      have hv' : via ∈ items (seen ++ [⟨x, some via⟩]) := by
        rw [items, List.map_append]
        exact List.mem_append_left _ hv
      have h := ih hvisit hv' hrest
      rwa [List.append_assoc, List.singleton_append] at h

theorem Linked.explore (fuel : Nat) {seen queue : List (Visit α)} (h : Linked next start seen)
    (hq : ∀ v ∈ queue, v.item ∈ items seen) : Linked next start (explore next fuel seen queue) := by
  induction fuel generalizing seen queue with
  | zero => rwa [Search.explore]
  | succ fuel ih =>
    cases queue with
    | nil => rwa [Search.explore]
    | cons v queue =>
      rw [Search.explore]
      refine ih (h.append_discover (hq v List.mem_cons_self) fun _ hx => hx) fun w hw => ?_
      rw [items, List.map_append]
      rcases List.mem_append.1 hw with hw | hw
      · exact List.mem_append_left _ (hq w (List.mem_cons_of_mem v hw))
      · exact List.mem_append_right _ (List.mem_map_of_mem hw)

theorem linked_visits (next : α → List α) (size : Nat) (start : α) :
    Linked next start (visits next size start) :=
  Linked.start.explore size fun _ hv => List.mem_map_of_mem hv

/-- Following linked visits back from a visited item ends. -/
theorem Linked.exists_traced {vs : List (Visit α)} (h : Linked next start vs)
    (hg : goal ∈ items vs) (rest : List α) :
    ∃ trail, trailTo goal vs.reverse rest = trail ++ rest ∧ Traced vs goal trail := by
  induction h generalizing goal rest with
  | start =>
    rw [List.mem_singleton.1 hg]
    exact ⟨[start], by simp [trailTo], .start List.mem_cons_self⟩
  | @visit vs x y _ hx _ ih =>
    rw [List.reverse_append, List.reverse_singleton, List.singleton_append, trailTo]
    split
    · next he =>
      subst he
      obtain ⟨trail, ht, htraced⟩ := ih hx (y :: rest)
      refine ⟨trail ++ [y], by rw [List.append_assoc]; exact ht, ?_⟩
      exact (htraced.append _).step (List.mem_append_right _ List.mem_cons_self)
    · next hne =>
      rw [items, List.map_append] at hg
      obtain ⟨trail, ht, htraced⟩ := ih ((List.mem_append.1 hg).resolve_right fun hm =>
        hne (List.mem_singleton.1 hm).symm) rest
      exact ⟨trail, ht, htraced.append _⟩

/-- What a search gives as a trail is what its visits lead back through. -/
theorem trail?_traced {size : Nat} {trail : List α}
    (ht : trail? next size start goal = some trail) :
    Traced (visits next size start) goal trail := by
  unfold trail? at ht
  simp only at ht
  split at ht
  · next hs =>
    obtain ⟨l, he, hl⟩ := (linked_visits next size start).exists_traced (seenIn_iff.1 hs) []
    rw [he, List.append_nil] at ht
    rwa [← Option.some.inj ht]
  · cases ht

/-- **What a search gives as a trail is a trail from the start to the goal.** -/
theorem trail?_isTrail {size : Nat} {trail : List α}
    (ht : trail? next size start goal = some trail) : IsTrail next start goal trail :=
  (trail?_traced ht).isTrail (linked_visits next size start)

end Ontogram.Search
