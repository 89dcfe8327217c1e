import Mathlib.Data.List.Nodup
import Mathlib.Data.List.Perm.Subperm
import Mathlib.Logic.Relation
import Ontogram.Search

/-!
# What a breadth-first search finds

A search finds every item that `next` reaches from the start and nothing else, each once. The
state of a search is the list of visits, and those at its end are the queue; `Progress` is the
invariant. Each unit of fuel is spent on a visit that leaves the queue for good, so a search with as
much fuel as there are items ends with an empty queue.

* `mem_reached` — exactly what is reached is found.
* `reached_nodup` — nothing is found twice.
* `trail?_sublist` — a trail goes through what was found, in its order.
-/

namespace Ontogram.Search

variable {α : Type} {next : α → List α} {start : α}

/-- Reached by steps of `next`. -/
def Reaches (next : α → List α) : α → α → Prop :=
  Relation.ReflTransGen fun a b => b ∈ next a

/-- The items of some visits. -/
abbrev items (vs : List (Visit α)) : List α :=
  vs.map Visit.item

/-- The state of a search: some visits are done and the others wait. -/
structure Progress (next : α → List α) (start : α) (done queue : List (Visit α)) : Prop where
  nodup : (items (done ++ queue)).Nodup
  start_mem : start ∈ items (done ++ queue)
  sound : ∀ x ∈ items (done ++ queue), Reaches next start x
  closed : ∀ x ∈ items done, ∀ y ∈ next x, y ∈ items (done ++ queue)

theorem progress_start : Progress next start [] [⟨start, none⟩] where
  nodup := List.nodup_singleton _
  start_mem := List.mem_singleton.2 rfl
  sound := by
    intro x hx
    rw [List.mem_singleton.1 hx]
    exact Relation.ReflTransGen.refl
  closed := nofun

/-- The queue is empty at the end if all that can be reached is in a list no longer than the
fuel. -/
theorem Progress.queue_eq_nil {done queue : List (Visit α)} {size : Nat}
    (hp : Progress next start done queue) (hd : queue = [] ∨ done.length = size) {ground : List α}
    (hg : ∀ x, Reaches next start x → x ∈ ground) (hs : ground.length ≤ size) : queue = [] := by
  rcases hd with hq | hd
  · exact hq
  · have hsub : (items (done ++ queue)).length ≤ ground.length :=
      (hp.nodup.subperm fun x hx => hg x (hp.sound x hx)).length_le
    rw [List.length_map, List.length_append] at hsub
    exact List.eq_nil_of_length_eq_zero (by omega)

variable [DecidableEq α]

theorem seenIn_iff {vs : List (Visit α)} {x : α} : seenIn vs x = true ↔ x ∈ items vs := by
  unfold seenIn
  rw [List.any_eq_true, List.mem_map]
  simp only [beq_iff_eq]

/-! ## Discovering -/

/-- What is discovered is new, and each item of it is there once. -/
theorem nodup_append_discover (via : α) (xs : List α) {seen : List (Visit α)}
    (hs : (items seen).Nodup) : (items (seen ++ discover via xs seen)).Nodup := by
  induction xs generalizing seen with
  | nil => simpa [discover] using hs
  | cons x xs ih =>
    unfold discover
    split
    · exact ih hs
    · next hx =>
      rw [seenIn_iff] at hx
      have hn : (items (seen ++ [⟨x, some via⟩])).Nodup := by
        rw [items, List.map_append]
        exact hs.append (List.nodup_singleton _) (by simpa using hx)
      have h := ih hn
      rwa [List.append_assoc, List.singleton_append] at h

theorem mem_items_append_discover (via : α) {xs : List α} (seen : List (Visit α)) {x : α}
    (hx : x ∈ xs) : x ∈ items (seen ++ discover via xs seen) := by
  induction xs generalizing seen with
  | nil => exact absurd hx List.not_mem_nil
  | cons y ys ih =>
    unfold discover
    rcases List.mem_cons.1 hx with rfl | hx
    · split
      · next hs => exact List.mem_map.2 (by
          obtain ⟨v, hv, he⟩ := List.mem_map.1 (seenIn_iff.1 hs)
          exact ⟨v, List.mem_append_left _ hv, he⟩)
      · simp
    · split
      · exact ih seen hx
      · have h := ih (seen ++ [⟨y, some via⟩]) hx
        rwa [List.append_assoc, List.singleton_append] at h

/-- What is discovered comes from the list. -/
theorem mem_of_mem_discover {via : α} {xs : List α} {seen : List (Visit α)} {v : Visit α}
    (hv : v ∈ discover via xs seen) : v.item ∈ xs := by
  induction xs generalizing seen with
  | nil => exact absurd hv List.not_mem_nil
  | cons x xs ih =>
    unfold discover at hv
    split at hv
    · exact List.mem_cons_of_mem _ (ih hv)
    · rcases List.mem_cons.1 hv with rfl | hv
      · exact List.mem_cons_self
      · exact List.mem_cons_of_mem _ (ih hv)

/-- What is discovered was not there before. -/
theorem notMem_of_mem_discover {via : α} {xs : List α} {seen : List (Visit α)}
    (hs : (items seen).Nodup) {v : Visit α} (hv : v ∈ discover via xs seen) :
    v.item ∉ items seen := by
  have hnd := nodup_append_discover via xs hs
  rw [items, List.map_append] at hnd
  exact fun hmem => List.disjoint_of_nodup_append hnd hmem (List.mem_map_of_mem hv)

/-! ## Steps -/

theorem Progress.step {done queue : List (Visit α)} {v : Visit α}
    (hp : Progress next start done (v :: queue)) :
    Progress next start (done ++ [v])
      (queue ++ discover v.item (next v.item) (done ++ v :: queue)) := by
  have hsplit : ∀ found : List (Visit α),
      (done ++ [v]) ++ (queue ++ found) = (done ++ v :: queue) ++ found := by simp
  have hv : v.item ∈ items (done ++ v :: queue) := by simp
  refine ⟨?_, ?_, ?_, ?_⟩
  · rw [hsplit]
    exact nodup_append_discover v.item _ hp.nodup
  · rw [hsplit, items, List.map_append]
    exact List.mem_append_left _ hp.start_mem
  · intro x hx
    rw [hsplit, items, List.map_append] at hx
    rcases List.mem_append.1 hx with hx | hx
    · exact hp.sound x hx
    · obtain ⟨w, hw, rfl⟩ := List.mem_map.1 hx
      exact (hp.sound _ hv).tail (mem_of_mem_discover hw)
  · intro x hx y hy
    rw [hsplit]
    rw [items, List.map_append] at hx
    rcases List.mem_append.1 hx with hx | hx
    · rw [items, List.map_append]
      exact List.mem_append_left _ (hp.closed x hx y hy)
    · rw [List.mem_singleton.1 hx] at hy
      exact mem_items_append_discover v.item _ hy

/-- What a step keeps holds at the end of a search, which stops when the queue is empty or its fuel
is spent, one unit for each visit that is done. -/
theorem exists_explore {I : List (Visit α) → List (Visit α) → Prop}
    (hstep : ∀ {done v queue}, I done (v :: queue) →
      I (done ++ [v]) (queue ++ discover v.item (next v.item) (done ++ v :: queue)))
    (fuel : Nat) {done queue : List (Visit α)} (hi : I done queue) :
    ∃ done' queue', explore next fuel (done ++ queue) queue = done' ++ queue' ∧
      I done' queue' ∧ (queue' = [] ∨ done'.length = fuel + done.length) := by
  induction fuel generalizing done queue with
  | zero => exact ⟨done, queue, by rw [explore], hi, Or.inr (by omega)⟩
  | succ fuel ih =>
    cases queue with
    | nil => exact ⟨done, [], by rw [explore], hi, Or.inl rfl⟩
    | cons v queue =>
      obtain ⟨done', queue', he, hi', hq⟩ := ih (hstep hi)
      refine ⟨done', queue', ?_, hi', ?_⟩
      · rw [explore, ← he]
        simp
      · rw [List.length_append, List.length_singleton] at hq
        exact hq.imp_right fun hl => by omega

/-- A search adds visits behind those there are. -/
theorem prefix_explore (next : α → List α) (fuel : Nat) (seen queue : List (Visit α)) :
    seen <+: explore next fuel seen queue := by
  induction fuel generalizing seen queue with
  | zero => exact List.prefix_refl seen
  | succ fuel ih =>
    cases queue with
    | nil => exact List.prefix_refl seen
    | cons v queue =>
      rw [explore]
      exact (List.prefix_append seen _).trans (ih _ _)

/-- The start is found first. -/
theorem exists_reached_eq_cons (next : α → List α) (size : Nat) (start : α) :
    ∃ rest, reached next size start = start :: rest := by
  obtain ⟨rest, hrest⟩ := prefix_explore next size [⟨start, none⟩] [⟨start, none⟩]
  exact ⟨items rest, by rw [reached, visits, ← hrest]; rfl⟩

theorem exists_progress_visits (next : α → List α) (size : Nat) (start : α) :
    ∃ done queue, visits next size start = done ++ queue ∧ Progress next start done queue ∧
      (queue = [] ∨ done.length = size) :=
  exists_explore Progress.step size progress_start

/-! ## What is found -/

/-- **A search finds nothing twice.** -/
theorem reached_nodup (next : α → List α) (size : Nat) (start : α) :
    (reached next size start).Nodup := by
  obtain ⟨done, queue, he, hp, -⟩ := exists_progress_visits next size start
  rw [reached, he]
  exact hp.nodup

theorem reaches_of_mem_reached {size : Nat} {x : α} (hx : x ∈ reached next size start) :
    Reaches next start x := by
  obtain ⟨done, queue, he, hp, -⟩ := exists_progress_visits next size start
  rw [reached, he] at hx
  exact hp.sound x hx

/-- **A search finds exactly what the start reaches.** -/
theorem mem_reached {size : Nat} {ground : List α} (hg : ∀ x, Reaches next start x → x ∈ ground)
    (hs : ground.length ≤ size) {x : α} :
    x ∈ reached next size start ↔ Reaches next start x := by
  refine ⟨reaches_of_mem_reached, fun h => ?_⟩
  obtain ⟨done, queue, he, hp, hd⟩ := exists_progress_visits next size start
  obtain rfl := hp.queue_eq_nil hd hg hs
  have hmem := hp.start_mem
  have hclosed := hp.closed
  rw [List.append_nil] at he hmem hclosed
  rw [reached, he]
  induction h with
  | refl => exact hmem
  | tail _ hb ih => exact hclosed _ ih _ hb

/-! ## Trails -/

/-- There is a trail to what is found. -/
theorem isSome_trail? {size : Nat} {goal : α} :
    (trail? next size start goal).isSome ↔ goal ∈ reached next size start := by
  unfold trail? reached
  simp only
  rw [← seenIn_iff]
  split
  · next hs => exact iff_of_true rfl hs
  · next hs => exact iff_of_false nofun hs

/-- Following the visits back gives some of their items, in the order of the visits. -/
theorem exists_sublist_trailTo (goal : α) (vs : List (Visit α)) (rest : List α) :
    ∃ l, trailTo goal vs rest = l ++ rest ∧ l.Sublist (items vs.reverse) := by
  induction vs generalizing goal rest with
  | nil => exact ⟨[], rfl, List.nil_sublist _⟩
  | cons v earlier ih =>
    have hlast : ∀ l : List α, l.Sublist (items earlier.reverse) →
        (l ++ [v.item]).Sublist (items (v :: earlier).reverse) := by
      intro l hl
      rw [List.reverse_cons, items, List.map_append]
      exact hl.append (List.Sublist.refl _)
    unfold trailTo
    split
    · split
      · exact ⟨[v.item], rfl, hlast [] (List.nil_sublist _)⟩
      · next p _ =>
        obtain ⟨l, he, hl⟩ := ih p (v.item :: rest)
        exact ⟨l ++ [v.item], by rw [he, List.append_assoc]; rfl, hlast l hl⟩
    · obtain ⟨l, he, hl⟩ := ih goal rest
      refine ⟨l, he, hl.trans ?_⟩
      rw [List.reverse_cons]
      exact (List.sublist_append_left _ _).map _

/-- **A trail goes through what the search found, in its order.** -/
theorem trail?_sublist {size : Nat} {goal : α} {trail : List α}
    (ht : trail? next size start goal = some trail) :
    trail.Sublist (reached next size start) := by
  unfold trail? at ht
  simp only at ht
  split at ht
  · obtain ⟨l, he, hl⟩ := exists_sublist_trailTo goal (visits next size start).reverse []
    rw [he, List.append_nil] at ht
    rw [← Option.some.inj ht]
    rwa [List.reverse_reverse] at hl
  · cases ht

end Ontogram.Search
