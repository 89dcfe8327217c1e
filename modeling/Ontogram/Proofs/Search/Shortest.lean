import Mathlib.Data.List.Chain
import Mathlib.Data.List.Induction
import Ontogram.Proofs.Search.Order
import Ontogram.Proofs.Search.Trail

/-!
# A search finds a shortest way

A visit is one step farther from the start than the one that it came from: what was not found yet is
farther than the head of the queue, and the head leads there. So the way back through the visits is
as short as any.

`Seeks` is the search as it runs, with no bound on its steps. It takes the head of the queue until
that is the goal, and then it looks up in turn where each item came from until there is no answer.

* `within_iff_exists_isPath` — so many steps are enough if there is a path that short.
* `trail?_isShortestPath` — a trail is a shortest path.
* `seeks_iff` — the search without bound ends, and with that trail.
-/

namespace Ontogram

/-! ## Paths -/

section Paths

variable {α : Type} {r : α → α → Prop} {a b c : α} {path : List α}

/-- The items on a way along a relation, both ends included. -/
structure IsPath (r : α → α → Prop) (a b : α) (path : List α) : Prop where
  head : path.head? = some a
  last : path.getLast? = some b
  steps : path.IsChain r

/-- A path that no other path between its ends is shorter than. -/
def IsShortestPath (r : α → α → Prop) (a b : α) (path : List α) : Prop :=
  IsPath r a b path ∧ ∀ other, IsPath r a b other → path.length ≤ other.length

theorem IsPath.single (r : α → α → Prop) (a : α) : IsPath r a a [a] :=
  ⟨rfl, rfl, List.isChain_singleton a⟩

theorem IsPath.concat (h : IsPath r a b path) (hbc : r b c) : IsPath r a c (path ++ [c]) where
  head := by rw [List.head?_append, h.head]; rfl
  last := by simp
  steps := by
    refine h.steps.append (List.isChain_singleton c) fun x hx y hy => ?_
    rw [h.last] at hx
    cases hx
    cases hy
    exact hbc

theorem IsPath.length_pos (h : IsPath r a b path) : 0 < path.length := by
  cases path with
  | nil => cases h.head
  | cons _ _ => simp

/-- A path is its start alone, or it takes a last step. -/
theorem IsPath.eq_single_or_concat (h : IsPath r a b path) :
    (b = a ∧ path = [a]) ∨ ∃ x init, path = init ++ [b] ∧ IsPath r a x init ∧ r x b := by
  rcases List.eq_nil_or_concat path with rfl | ⟨init, y, rfl⟩
  · cases h.head
  · rw [List.concat_eq_append] at h ⊢
    obtain rfl : y = b := by simpa using h.last
    have hsteps := List.isChain_append.1 h.steps
    cases hlast : init.getLast? with
    | none =>
      obtain rfl := List.getLast?_eq_none_iff.1 hlast
      obtain rfl : y = a := by simpa using h.head
      exact Or.inl ⟨rfl, rfl⟩
    | some x =>
      have hhead : init.head? = some a := by
        have hh := h.head
        cases init with
        | nil => cases hlast
        | cons z zs => exact hh
      exact Or.inr ⟨x, init, rfl, ⟨hhead, hlast, hsteps.1⟩, hsteps.2.2 x hlast y rfl⟩

end Paths

namespace Search

variable {α : Type} {next : α → List α} {start goal x : α} {n : Nat} {trail : List α}

theorem IsTrail.isPath (h : IsTrail next start goal trail) :
    IsPath (fun a b => b ∈ next a) start goal trail := by
  induction h with
  | start => exact .single _ start
  | step _ hy ih => exact ih.concat hy

/-- **So many steps are enough exactly if there is a path that short.** -/
theorem within_iff_exists_isPath : Within next start n x ↔
    ∃ path, IsPath (fun a b => b ∈ next a) start x path ∧ path.length ≤ n + 1 := by
  constructor
  · intro h
    induction h with
    | start n => exact ⟨[start], .single _ start, by simp⟩
    | @step n x y _ hy ih =>
      obtain ⟨path, hpath, hlength⟩ := ih
      exact ⟨path ++ [y], hpath.concat hy, by simpa using hlength⟩
  · rintro ⟨path, hpath, hlength⟩
    induction n generalizing x path with
    | zero =>
      rcases hpath.eq_single_or_concat with ⟨rfl, -⟩ | ⟨y, init, rfl, hinit, -⟩
      · exact .start 0
      · -- A path that takes a step has two items.
        have := hinit.length_pos
        rw [List.length_append, List.length_singleton] at hlength
        omega
    | succ n ih =>
      rcases hpath.eq_single_or_concat with ⟨rfl, -⟩ | ⟨y, init, rfl, hinit, hy⟩
      · exact .start (n + 1)
      · exact .step (ih init hinit (by simpa using hlength)) hy

/-- A path has so many steps that they are enough to get to its end. -/
theorem within_of_isPath {path : List α} (h : IsPath (fun a b => b ∈ next a) start x path) :
    Within next start (path.length - 1) x :=
  within_iff_exists_isPath.2 ⟨path, h, by omega⟩

/-- What is reached has a shortest path to it. -/
theorem exists_isShortestPath (h : Reaches next start x) :
    ∃ path, IsShortestPath (fun a b => b ∈ next a) start x path := by
  obtain ⟨n, hn, hmin⟩ := exists_isDistance h
  obtain ⟨path, hpath, hlength⟩ := within_iff_exists_isPath.1 hn
  refine ⟨path, hpath, fun other hother => ?_⟩
  have := hmin _ (within_of_isPath hother)
  have := hother.length_pos
  omega

/-! ## Visits are one step farther than where they came from -/

/-- Where a visit came from is one step nearer. -/
def Tight (next : α → List α) (start : α) (vs : List (Visit α)) : Prop :=
  ∀ v ∈ vs, ∀ x, v.via = some x → ∀ n, Within next start n v.item →
    ∃ m, n = m + 1 ∧ Within next start m x

/-- Tight visits trace a way that is as short as any. -/
theorem Traced.length_le {vs : List (Visit α)} (h : Traced vs goal trail)
    (ht : Tight next start vs) (hn : Within next start n goal) : trail.length ≤ n + 1 := by
  induction h generalizing n with
  | start => simp
  | @step x y trail _ hy ih =>
    obtain ⟨m, rfl, hm⟩ := ht _ hy x rfl n hn
    have := ih hm
    simpa using this

variable [DecidableEq α]

theorem via_of_mem_discover {via : α} {xs : List α} {seen : List (Visit α)} {v : Visit α}
    (hv : v ∈ discover via xs seen) : v.via = some via := by
  induction xs generalizing seen with
  | nil => exact absurd hv List.not_mem_nil
  | cons x xs ih =>
    unfold discover at hv
    split at hv
    · exact ih hv
    · rcases List.mem_cons.1 hv with rfl | hv
      · rfl
      · exact ih hv

theorem Tight.step {done queue : List (Visit α)} {v : Visit α}
    (hp : Progress next start done (v :: queue)) (hl : Layered next start done (v :: queue))
    (ht : Tight next start (done ++ v :: queue)) :
    Tight next start (done ++ [v] ++
      (queue ++ discover v.item (next v.item) (done ++ v :: queue))) := by
  intro w hw x hx n hn
  have hsplit : w ∈ (done ++ v :: queue) ++ discover v.item (next v.item) (done ++ v :: queue) := by
    simpa using hw
  rcases List.mem_append.1 hsplit with hw | hw
  · exact ht w hw x hx n hn
  · -- What is found now comes from the head, which is nearer than all that was not found yet.
    rw [via_of_mem_discover hw] at hx
    cases hx
    exact exists_within_head hp hl (notMem_of_mem_discover hp.nodup hw) hn

theorem tight_visits (next : α → List α) (size : Nat) (start : α) :
    Tight next start (visits next size start) := by
  have hstart : Tight next start [⟨start, none⟩] := by
    intro v hv x hx
    rw [List.mem_singleton.1 hv] at hx
    cases hx
  obtain ⟨done, queue, he, ⟨-, -, ht⟩, -⟩ := exists_explore
    (I := fun done queue => Progress next start done queue ∧ Layered next start done queue ∧
      Tight next start (done ++ queue))
    (fun hi => ⟨hi.1.step, hi.2.1.step hi.1, hi.2.2.step hi.1 hi.2.1⟩) size
    ⟨progress_start, layered_start, hstart⟩
  rw [List.nil_append] at he
  rwa [visits, he]

/-- **A trail is a shortest path.** -/
theorem trail?_isShortestPath {size : Nat} (ht : trail? next size start goal = some trail) :
    IsShortestPath (fun a b => b ∈ next a) start goal trail := by
  refine ⟨(trail?_isTrail ht).isPath, fun other hother => ?_⟩
  have := (trail?_traced ht).length_le (tight_visits next size start) (within_of_isPath hother)
  have := hother.length_pos
  omega

/-- **Nothing is found after an item that a shortest path to is longer.** -/
theorem reached_pairwise_length_le (next : α → List α) (size : Nat) (start : α) :
    (reached next size start).Pairwise fun x y => ∀ p q,
      IsShortestPath (fun a b => b ∈ next a) start x p →
      IsShortestPath (fun a b => b ∈ next a) start y q → p.length ≤ q.length := by
  refine (reached_sorted next size start).imp fun {x y} hxy p q hp hq => ?_
  obtain ⟨path, hpath, hlength⟩ := within_iff_exists_isPath.1 (hxy _ (within_of_isPath hq.1))
  have := hp.2 path hpath
  have := hq.1.length_pos
  omega

/-! ## The search without a bound -/

/-- The item that an item was first reached from. -/
def cameFrom? (seen : List (Visit α)) (x : α) : Option α :=
  (seen.find? fun v => v.item == x).bind Visit.via

/-- The items that looking up one after the other leads through, until there is no answer. -/
inductive Follows (from? : α → Option α) : α → List α → Prop where
  | last {x : α} : from? x = none → Follows from? x [x]
  | back {x y : α} {rest : List α} : from? x = some y → Follows from? y rest →
      Follows from? x (x :: rest)

/-- The search for a goal as it runs: some items are seen, and some of those wait. It ends at the
goal or when nothing waits. -/
inductive Seeks (next : α → List α) (goal : α) :
    List (Visit α) → List (Visit α) → Option (List α) → Prop where
  | exhausted {seen : List (Visit α)} : Seeks next goal seen [] none
  | found {seen queue : List (Visit α)} {v : Visit α} {back : List α} : v.item = goal →
      Follows (cameFrom? seen) goal back → Seeks next goal seen (v :: queue) (some back.reverse)
  | visit {seen queue : List (Visit α)} {v : Visit α} {trail? : Option (List α)} :
      v.item ≠ goal →
      Seeks next goal (seen ++ discover v.item (next v.item) seen)
        (queue ++ discover v.item (next v.item) seen) trail? →
      Seeks next goal seen (v :: queue) trail?

theorem Follows.unique {α : Type} {from? : α → Option α} {x : α} {l l' : List α}
    (h : Follows from? x l) (h' : Follows from? x l') : l = l' := by
  induction h generalizing l' with
  | last hx =>
    cases h' with
    | last _ => rfl
    | back hy _ => rw [hx] at hy; cases hy
  | back hy _ ih =>
    cases h' with
    | last hx => rw [hx] at hy; cases hy
    | back hy' hrest =>
      rw [hy] at hy'
      cases hy'
      rw [ih hrest]

theorem Seeks.unique {seen queue : List (Visit α)} {o o' : Option (List α)}
    (h : Seeks next goal seen queue o) (h' : Seeks next goal seen queue o') : o = o' := by
  induction h generalizing o' with
  | exhausted =>
    cases h'
    rfl
  | found hg hback =>
    cases h' with
    | found _ hback' => rw [hback.unique hback']
    | visit hne _ => exact absurd hg hne
  | visit hne _ ih =>
    cases h' with
    | found hg _ => exact absurd hg hne
    | visit _ hrest => exact ih hrest

/-- Of visits to different items, a look-up finds each. -/
theorem cameFrom?_eq {seen : List (Visit α)} (hs : (items seen).Nodup) {v : Visit α}
    (hv : v ∈ seen) : cameFrom? seen v.item = v.via := by
  unfold cameFrom?
  cases hf : seen.find? fun w => w.item == v.item with
  | none => exact absurd (List.find?_eq_none.1 hf v hv) (by simp)
  | some w =>
    have hw : w.item = v.item := by simpa using List.find?_some hf
    rw [List.inj_on_of_nodup_map hs (List.mem_of_find?_eq_some hf) hv hw]
    rfl

/-- Looking up where each item came from leads back along the way that the visits trace. -/
theorem Traced.follows {seen : List (Visit α)} (hs : (items seen).Nodup)
    (h : Traced seen goal trail) : Follows (cameFrom? seen) goal trail.reverse := by
  induction h with
  | start hx => exact .last (cameFrom?_eq hs hx)
  | @step x y trail _ hy ih =>
    rw [List.reverse_append]
    exact .back (cameFrom?_eq hs hy) ih

/-- What was found after an item does not matter for the way back from it. -/
theorem trailTo_append {seen later : List (Visit α)} (hg : goal ∉ items later) :
    trailTo goal (seen ++ later).reverse [] = trailTo goal seen.reverse [] := by
  induction later using List.reverseRecOn with
  | nil => rw [List.append_nil]
  | append_singleton later v ih =>
    rw [items, List.map_append, List.mem_append, not_or] at hg
    have hv : v.item ≠ goal := fun he => hg.2 (by simp [he])
    rw [← List.append_assoc, List.reverse_append, List.reverse_singleton, List.singleton_append,
      trailTo, if_neg hv]
    exact ih hg.1

/-- A search that has not come to the goal yet ends with the way back through all its visits. -/
theorem seeks_of_progress {ground : List α} (hground : ∀ x, Reaches next start x → x ∈ ground)
    {vs : List (Visit α)} (hvs : (items vs).Nodup) (fuel : Nat) {done queue : List (Visit α)}
    (hsize : ground.length ≤ fuel + done.length) (he : explore next fuel (done ++ queue) queue = vs)
    (hp : Progress next start done queue) (hl : Linked next start (done ++ queue))
    (hnew : goal ∉ items done) :
    Seeks next goal (done ++ queue) queue
      (if seenIn vs goal then some (trailTo goal vs.reverse []) else none) := by
  induction fuel generalizing done queue with
  | zero =>
    obtain rfl := hp.queue_eq_nil (Or.inr rfl) hground (by omega)
    rw [explore, List.append_nil] at he
    subst he
    rw [List.append_nil, if_neg (mt seenIn_iff.1 hnew)]
    exact .exhausted
  | succ fuel ih =>
    cases queue with
    | nil =>
      rw [explore, List.append_nil] at he
      subst he
      rw [List.append_nil, if_neg (mt seenIn_iff.1 hnew)]
      exact .exhausted
    | cons v queue =>
      by_cases hv : v.item = goal
      · have hseen : goal ∈ items (done ++ v :: queue) := by simp [hv]
        obtain ⟨later, rfl⟩ : (done ++ v :: queue) <+: vs := he ▸ prefix_explore next _ _ _
        have hlater : goal ∉ items later := by
          rw [items, List.map_append] at hvs
          exact List.disjoint_of_nodup_append hvs hseen
        have hfound : seenIn ((done ++ v :: queue) ++ later) goal = true :=
          seenIn_iff.2 (by rw [items, List.map_append]; exact List.mem_append_left _ hseen)
        obtain ⟨trail, htrail, htraced⟩ := hl.exists_traced hseen []
        rw [if_pos hfound, trailTo_append hlater, htrail, List.append_nil, ← trail.reverse_reverse]
        exact .found hv (htraced.follows hp.nodup)
      · refine .visit hv ?_
        have hsplit : ∀ found : List (Visit α),
            (done ++ v :: queue) ++ found = done ++ [v] ++ (queue ++ found) := by simp
        have hmem : v.item ∈ items (done ++ v :: queue) := by simp
        have hlinked := hl.append_discover hmem fun _ hx => hx
        rw [explore, hsplit] at he
        rw [hsplit] at hlinked ⊢
        refine ih (by simp; omega) he hp.step hlinked fun hmem => ?_
        rw [items, List.map_append] at hmem
        rcases List.mem_append.1 hmem with hmem | hmem
        · exact hnew hmem
        · exact hv (List.mem_singleton.1 hmem).symm

/-- **The search without a bound ends, and with the trail.** -/
theorem seeks_iff {ground : List α} (hground : ∀ x, Reaches next start x → x ∈ ground) {size : Nat}
    (hsize : ground.length ≤ size) {o : Option (List α)} :
    Seeks next goal [⟨start, none⟩] [⟨start, none⟩] o ↔ o = trail? next size start goal := by
  have hvs : (items (visits next size start)).Nodup := reached_nodup next size start
  have hstart : Progress next start [] [⟨start, none⟩] := progress_start
  have hrun : Seeks next goal [⟨start, none⟩] [⟨start, none⟩] (trail? next size start goal) :=
    seeks_of_progress hground hvs size (by simpa using hsize) rfl hstart .start List.not_mem_nil
  exact ⟨fun h => h.unique hrun, fun h => h ▸ hrun⟩

end Search

end Ontogram
