import Ontogram.Proofs.Search.Shortest

/-!
# Of ways that are as short a search prefers the one of earlier steps

An item leads to others in an order, and a search tries them in that order. So items are found in
the order of those that they were found from, and those found from one item in its order. It follows
that the trail to an item is preferred to every other way there, and to every way to an item that
is found later.

* `Preferred` — shorter, or as long and by an earlier step where the two ways part.
* `Ordered` — the order of the visits, by what they came from.
* `trail?_preferred` — the trail to an item, and the ways to that item and to later ones.
-/

namespace Ontogram

/-! ## Preference -/

section Ways

variable {α : Type} {before before' : α → α → α → Prop} {a b c : α} {p q : List α}

/-- Two ways part after a common beginning, and there the first takes the step that comes before. -/
inductive Earlier (before : α → α → α → Prop) : List α → List α → Prop where
  | part {a b c : α} {p q : List α} : before a b c → Earlier before (a :: b :: p) (a :: c :: q)
  | goOn {a : α} {p q : List α} : Earlier before p q → Earlier before (a :: p) (a :: q)

/-- A way is preferred to the longer ones, and to those that are as long and part from it by a later
step. -/
def Preferred (before : α → α → α → Prop) (p q : List α) : Prop :=
  p.length < q.length ∨ p.length = q.length ∧ (p = q ∨ Earlier before p q)

theorem Earlier.mono (h : ∀ a b c, before a b c → before' a b c) (hpq : Earlier before p q) :
    Earlier before' p q := by
  induction hpq with
  | part hb => exact .part (h _ _ _ hb)
  | goOn _ ih => exact .goOn ih

theorem Preferred.mono (h : ∀ a b c, before a b c → before' a b c) (hpq : Preferred before p q) :
    Preferred before' p q :=
  hpq.imp_right fun ⟨hlength, heq⟩ => ⟨hlength, heq.imp_right (Earlier.mono h)⟩

theorem Earlier.append (hpq : Earlier before p q) (s t : List α) :
    Earlier before (p ++ s) (q ++ t) := by
  induction hpq with
  | part hb => exact .part hb
  | goOn _ ih => exact .goOn ih

theorem earlier_concat (hb : before a b c) (p : List α) :
    Earlier before (p ++ [a] ++ [b]) (p ++ [a] ++ [c]) := by
  induction p with
  | nil => exact .part hb
  | cons x p ih => exact .goOn ih

end Ways

namespace Search

variable {α : Type} {next : α → List α} {start x y : α} {done queue vs : List (Visit α)}
  {v : Visit α} {p q : List α}

/-- Of two items that an item leads to, the first comes before. -/
def StepBefore (next : α → List α) (a b c : α) : Prop :=
  Precedes (next a) b c

/-! ## The order of the visits -/

/-- What a visit came from is done, and no other item that leads to it was visited before. Visits
are in the order of what they came from, and those from one item in its order. -/
structure Ordered (next : α → List α) (done queue : List (Visit α)) : Prop where
  via_mem : ∀ v ∈ done ++ queue, ∀ a, v.via = some a → a ∈ items done
  via_first : ∀ v ∈ done ++ queue, ∀ a, v.via = some a → ∀ x ∈ items done, v.item ∈ next x →
    a = x ∨ Precedes (items (done ++ queue)) a x
  sorted : (done ++ queue).Pairwise fun v w => ∀ a b, v.via = some a → w.via = some b →
    (a = b ∧ StepBefore next a v.item w.item) ∨ Precedes (items (done ++ queue)) a b

theorem ordered_start : Ordered next [] [⟨start, none⟩] where
  via_mem := by
    intro v hv a ha
    rw [List.mem_singleton.1 hv] at ha
    cases ha
  via_first := fun _ _ _ _ _ hx => absurd hx List.not_mem_nil
  sorted := List.pairwise_singleton _ _

/-- What is done stands before the head of the queue. -/
theorem precedes_head (hx : x ∈ items done) : Precedes (items (done ++ v :: queue)) x v.item := by
  rw [items, List.map_append]
  exact (List.singleton_sublist.2 hx).append (List.singleton_sublist.2 List.mem_cons_self)

section Step

variable [DecidableEq α]

theorem items_discover_sublist (via : α) (xs : List α) (seen : List (Visit α)) :
    (items (discover via xs seen)).Sublist xs := by
  induction xs generalizing seen with
  | nil => exact List.Sublist.refl _
  | cons x xs ih =>
    unfold discover
    split
    · exact (ih seen).cons x
    · exact (ih _).cons_cons x

theorem Ordered.step (hp : Progress next start done (v :: queue))
    (ho : Ordered next done (v :: queue)) : Ordered next (done ++ [v])
      (queue ++ discover v.item (next v.item) (done ++ v :: queue)) := by
  have hfound : ∀ w ∈ discover v.item (next v.item) (done ++ v :: queue),
      w.via = some v.item ∧ w.item ∉ items (done ++ v :: queue) := fun w hw =>
    ⟨via_of_mem_discover hw, notMem_of_mem_discover hp.nodup hw⟩
  have hinOrder : (discover v.item (next v.item) (done ++ v :: queue)).Pairwise fun w w' =>
      StepBefore next v.item w.item w'.item :=
    List.pairwise_map.1 (List.pairwise_iff_forall_sublist.2 fun h =>
      h.trans (items_discover_sublist _ _ _))
  generalize discover v.item (next v.item) (done ++ v :: queue) = found at hfound hinOrder
  have hsplit : done ++ [v] ++ (queue ++ found) = (done ++ v :: queue) ++ found := by simp
  have hlater : ∀ {a b}, Precedes (items (done ++ v :: queue)) a b →
      Precedes (items ((done ++ v :: queue) ++ found)) a b := fun h =>
    h.trans ((List.sublist_append_left _ _).map _)
  have hdone : ∀ {x}, x ∈ items (done ++ [v]) ↔ x ∈ items done ∨ x = v.item := by simp
  refine ⟨fun w hw a ha => ?_, fun w hw a ha x hx hstep => ?_, ?_⟩
  · rw [hsplit, List.mem_append] at hw
    rcases hw with hw | hw
    · exact hdone.2 (Or.inl (ho.via_mem w hw a ha))
    · exact hdone.2 (Or.inr (Option.some.inj (ha.symm.trans (hfound w hw).1)))
  · rw [hsplit] at hw ⊢
    rcases List.mem_append.1 hw with hw | hw <;> rcases hdone.1 hx with hx | rfl
    · exact (ho.via_first w hw a ha x hx hstep).imp_right hlater
    · exact Or.inr (hlater (precedes_head (ho.via_mem w hw a ha)))
    · -- What is done leads to nothing that is found only now.
      exact absurd (hp.closed x hx _ hstep) (hfound w hw).2
    · exact Or.inl (Option.some.inj (ha.symm.trans (hfound w hw).1))
  · rw [hsplit, List.pairwise_append]
    refine ⟨?_, ?_, ?_⟩
    · exact ho.sorted.imp fun h a b ha hb => (h a b ha hb).imp_right hlater
    · refine hinOrder.imp_of_mem fun {w w'} hw hw' h a b ha hb => Or.inl ?_
      obtain rfl := Option.some.inj (ha.symm.trans (hfound w hw).1)
      exact ⟨Option.some.inj ((hfound w' hw').1.symm.trans hb), h⟩
    · intro w hw w' hw' a b ha hb
      obtain rfl := Option.some.inj (hb.symm.trans (hfound w' hw').1)
      exact Or.inr (hlater (precedes_head (ho.via_mem w hw a ha)))

end Step

/-! ## Finished searches -/

/-- The visits at the end of a search, once nothing waits. -/
structure Finished (next : α → List α) (start : α) (vs : List (Visit α)) : Prop where
  progress : Progress next start vs []
  layered : Layered next start vs []
  ordered : Ordered next vs []
  tight : Tight next start vs
  linked : Linked next start vs

namespace Finished

variable (h : Finished next start vs)

include h

theorem nodup : (items vs).Nodup := by
  simpa using h.progress.nodup

theorem via_unique {a b : Option α} (ha : ⟨x, a⟩ ∈ vs) (hb : ⟨x, b⟩ ∈ vs) : a = b :=
  congrArg Visit.via (List.inj_on_of_nodup_map h.nodup ha hb rfl)

/-- What the start leads to was visited. -/
theorem mem_items {n : Nat} (hx : Within next start n x) : x ∈ items vs := by
  have hstart := h.progress.start_mem
  have hclosed := h.progress.closed
  rw [List.append_nil] at hstart hclosed
  induction hx with
  | start _ => exact hstart
  | step _ hy ih => exact hclosed _ ih _ hy

/-- An item that stands before another one, or is the same, is no farther. -/
theorem within_of_precedes {n : Nat} (hxy : x = y ∨ Precedes (items vs) x y)
    (hy : Within next start n y) : Within next start n x := by
  have hsorted := h.layered.sorted
  rw [List.append_nil] at hsorted
  rcases hxy with rfl | hxy
  · exact hy
  · exact hxy.pairwise hsorted n hy

/-- What two visits came from stands in their order. -/
theorem via_precedes {a b : α} (hx : ⟨x, some a⟩ ∈ vs) (hy : ⟨y, some b⟩ ∈ vs)
    (hxy : Precedes (items vs) x y) :
    (a = b ∧ StepBefore next a x y) ∨ Precedes (items vs) a b := by
  have hsorted := h.ordered.sorted
  rw [List.append_nil] at hsorted
  obtain ⟨v, w, hvw, rfl, rfl⟩ := hxy.exists_of_map
  have hv : v.via = some a := h.via_unique hvw.mem_left hx
  have hw : w.via = some b := h.via_unique hvw.mem_right hy
  exact hvw.pairwise hsorted a b hv hw

/-- What stands at the start or behind an item that came from another came from one as well. -/
theorem exists_via {a : α} (hx : ⟨x, some a⟩ ∈ vs) (hxy : x = y ∨ Precedes (items vs) x y)
    (hy : y ∈ items vs) : ∃ b, ⟨y, some b⟩ ∈ vs := by
  obtain ⟨⟨y, via⟩, hv, rfl⟩ := List.mem_map.1 hy
  cases via with
  | some b => exact ⟨b, hv⟩
  | none =>
    -- Only the start came from no item, and nothing else is as near as the start.
    rcases h.linked.eq_start_or_mem_next hv with he | ⟨_, he, -⟩
    · cases he
      obtain ⟨m, hm, -⟩ := h.tight _ hx a rfl 0 (h.within_of_precedes hxy (.start 0))
      cases hm
    · cases he

/-- **The way that the visits trace to an item, and a way as long to that item or a later one.** -/
theorem eq_or_earlier (hp : Traced vs x p) (hxy : x = y ∨ Precedes (items vs) x y)
    (hq : IsPath (fun a b => b ∈ next a) start y q) (hlength : p.length = q.length) :
    p = q ∨ Earlier (StepBefore next) p q := by
  induction hp generalizing y q with
  | @start x hx =>
    rcases hq.eq_single_or_concat with ⟨-, rfl⟩ | ⟨c, q, rfl, hq, -⟩
    · rcases h.linked.eq_start_or_mem_next hx with he | ⟨_, he, -⟩
      · cases he
        exact Or.inl rfl
      · cases he
    · have := hq.length_pos
      rw [List.length_singleton, List.length_append, List.length_singleton] at hlength
      omega
  | @step a x p hp hx ih =>
    have hpath := (hp.isTrail h.linked).isPath
    rcases hq.eq_single_or_concat with ⟨-, rfl⟩ | ⟨c, q, rfl, hq', hc⟩
    · have := hpath.length_pos
      rw [List.length_append, List.length_singleton, List.length_singleton] at hlength
      omega
    obtain ⟨b, hy⟩ := h.exists_via hx hxy (h.mem_items (within_of_isPath hq))
    have hab : (a = b ∧ (x = y ∨ StepBefore next a x y)) ∨ Precedes (items vs) a b := by
      rcases hxy with rfl | hxy
      · exact Or.inl ⟨Option.some.inj (h.via_unique hx hy), Or.inl rfl⟩
      · exact (h.via_precedes hx hy hxy).imp_left (And.imp_right Or.inr)
    have hbc : b = c ∨ Precedes (items vs) b c := by
      have hfirst := h.ordered.via_first
      rw [List.append_nil] at hfirst
      exact hfirst _ hy b rfl c (h.mem_items (within_of_isPath hq')) hc
    have hac : a = c ∨ Precedes (items vs) a c := by
      rcases hab with ⟨rfl, -⟩ | hab <;> rcases hbc with rfl | hbc
      · exact Or.inl rfl
      · exact Or.inr hbc
      · exact Or.inr hab
      · exact Or.inr (hab.trans_of_nodup h.nodup hbc)
    rcases ih hac hq' (by simpa using hlength) with rfl | he
    · -- The same way leads to both, so both came from its end.
      obtain rfl : a = c := Option.some.inj (hpath.last.symm.trans hq'.last)
      rcases hab with ⟨rfl, rfl | hstep⟩ | hab
      · exact Or.inl rfl
      · obtain ⟨p, rfl⟩ := (hp.isTrail h.linked).eq_concat
        exact Or.inr (earlier_concat hstep p)
      · rcases hbc with rfl | hbc
        · exact absurd hab (hab.asymm h.nodup)
        · exact absurd hbc (hab.asymm h.nodup)
    · exact Or.inr (he.append [x] [y])

end Finished

/-! ## Trails -/

variable [DecidableEq α]

theorem finished_visits {ground : List α} (hground : ∀ x, Reaches next start x → x ∈ ground)
    {size : Nat} (hsize : ground.length ≤ size) :
    Finished next start (visits next size start) := by
  obtain ⟨done, queue, he, ⟨hp, hl, ho⟩, hq⟩ := exists_explore
    (I := fun done queue => Progress next start done queue ∧ Layered next start done queue ∧
      Ordered next done queue)
    (fun hi => ⟨hi.1.step, hi.2.1.step hi.1, hi.2.2.step hi.1⟩) size
    ⟨progress_start, layered_start, ordered_start⟩
  obtain rfl := hp.queue_eq_nil hq hground hsize
  have hvs : visits next size start = done := he.trans (List.append_nil done)
  exact ⟨hvs ▸ hp, hvs ▸ hl, hvs ▸ ho, tight_visits next size start, linked_visits next size start⟩

/-- **The trail to an item is preferred** to every way to that item or to one found later. -/
theorem trail?_preferred {ground : List α} (hground : ∀ x, Reaches next start x → x ∈ ground)
    {size : Nat} (hsize : ground.length ≤ size) (ht : trail? next size start x = some p)
    (hxy : x = y ∨ Precedes (reached next size start) x y)
    (hq : IsPath (fun a b => b ∈ next a) start y q) : Preferred (StepBefore next) p q := by
  have h := finished_visits hground hsize
  have hp := trail?_traced ht
  have hle := hp.length_le h.tight (h.within_of_precedes hxy (within_of_isPath hq))
  have hpos := hq.length_pos
  rcases Nat.lt_or_ge p.length q.length with hlt | hge
  · exact Or.inl hlt
  · have hlength : p.length = q.length := by omega
    exact Or.inr ⟨hlength, h.eq_or_earlier hp hxy hq hlength⟩

/-- **Of two items the first is found on a way that is preferred** to every way to the other. -/
theorem exists_preferred_of_precedes {ground : List α}
    (hground : ∀ x, Reaches next start x → x ∈ ground) {size : Nat} (hsize : ground.length ≤ size)
    (hxy : Precedes (reached next size start) x y) :
    ∃ p, IsPath (fun a b => b ∈ next a) start x p ∧
      ∀ q, IsPath (fun a b => b ∈ next a) start y q → Preferred (StepBefore next) p q := by
  obtain ⟨p, hp⟩ := Option.isSome_iff_exists.1 (isSome_trail?.2 hxy.mem_left)
  exact ⟨p, (trail?_isTrail hp).isPath, fun q hq =>
    trail?_preferred hground hsize hp (Or.inr hxy) hq⟩

end Search

end Ontogram
