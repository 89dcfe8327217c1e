import Ontogram.Proofs.TermGraph.Grows
import Ontogram.Proofs.TermGraph.Labels

/-!
# What labels and pairs stand for

A valid arena is known by two look-ups: the term of a label and the relation of a pair. What is
listed is what they find. Putting a term or a link overwrites one entry, and so a run of them leaves
at an entry what the last one that hits it put there, if they agree on that.

* `Valid.term?_eq_some`, `Valid.relation?_eq_some` — a look-up finds what is listed.
* `Valid.term?_putTerm`, `linked?_putLink` — what one change leaves.
* `foldl_overwrites` — what a run of changes leaves.
-/

namespace Ontogram

section Overwriting

variable {σ α β : Type} {step : σ → α → σ} {I : σ → Prop} {f : σ → Option β} {p : α → Option β}

/-- **The last step that puts something at an entry wins.** -/
theorem foldl_eq_findSome?_or (hinv : ∀ s a, I s → I (step s a))
    (hstep : ∀ s a, I s → f (step s a) = (p a).or (f s)) (xs : List α) {s : σ} (hs : I s) :
    f (xs.foldl step s) = (xs.reverse.findSome? p).or (f s) := by
  induction xs generalizing s with
  | nil => rfl
  | cons a xs ih =>
    rw [List.foldl_cons, ih (hinv s a hs), hstep s a hs, List.reverse_cons, List.findSome?_append,
      Option.or_assoc, List.findSome?_singleton]

/-- Steps that agree on an entry leave there what they put. -/
theorem foldl_overwrites {o : Option β} {xs : List α} (hinv : ∀ s a, I s → I (step s a))
    (hstep : ∀ s a, I s → f (step s a) = (p a).or (f s))
    (ho : ∀ b, (∃ a ∈ xs, p a = some b) ↔ o = some b) {s : σ} (hs : I s) :
    f (xs.foldl step s) = o.or (f s) := by
  have hlast : xs.reverse.findSome? p = o := by
    cases hf : xs.reverse.findSome? p with
    | some b =>
      obtain ⟨a, ha, hp⟩ := List.exists_of_findSome?_eq_some hf
      exact ((ho b).1 ⟨a, List.mem_reverse.1 ha, hp⟩).symm
    | none =>
      rw [List.findSome?_eq_none_iff] at hf
      rw [eq_comm, Option.eq_none_iff_forall_ne_some]
      intro b hb
      obtain ⟨a, ha, hp⟩ := (ho b).2 hb
      rw [hf a (List.mem_reverse.2 ha)] at hp
      cases hp
  rw [foldl_eq_findSome?_or hinv hstep xs hs, hlast]

end Overwriting

namespace Arena

variable {g h : Arena} {label a b : String} {s t : Nat}

/-! ## Terms -/

/-- **A look-up finds the term of a label in its slot.** -/
theorem Valid.term?_eq_some (hg : g.Valid) {u : Term} :
    g.term? label = some u ↔ u.label = label ∧ ∃ slot, g.terms.get? slot = some u := by
  unfold term?
  rw [Option.bind_eq_some_iff]
  constructor
  · rintro ⟨slot, hl, hu⟩
    obtain ⟨u', hu', rfl⟩ := (hg.index label slot).1 hl
    rw [hu] at hu'
    cases hu'
    exact ⟨rfl, slot, hu⟩
  · rintro ⟨rfl, slot, hu⟩
    exact ⟨slot, (hg.index u.label slot).2 ⟨u, hu, rfl⟩, hu⟩

/-- The terms that are listed are those of their labels. -/
theorem Valid.mem_termList (hg : g.Valid) {u : Term} :
    u ∈ g.termList ↔ g.term? u.label = some u := by
  rw [hg.term?_eq_some, termList, Slots.mem_toList]
  exact (and_iff_right rfl).symm

theorem Valid.isSome_term? (hg : g.Valid) : (g.term? label).isSome = g.contains label := by
  rw [Bool.eq_iff_iff, Option.isSome_iff_exists, contains_eq_true_iff]
  constructor
  · rintro ⟨u, hu⟩
    obtain ⟨slot, hl, -⟩ := Option.bind_eq_some_iff.1 hu
    exact ⟨slot, hl⟩
  · rintro ⟨slot, hl⟩
    obtain ⟨u, hu, -⟩ := (hg.index label slot).1 hl
    exact ⟨u, Option.bind_eq_some_iff.2 ⟨slot, hl, hu⟩⟩

/-- **A term that is put stands under its label, and the others stay.** -/
theorem Valid.term?_putTerm (hg : g.Valid) (u : Term) :
    (g.putTerm u).1.term? label = if u.label = label then some u else g.term? label := by
  unfold Arena.putTerm Arena.term?
  split
  · next slot hs =>
    obtain ⟨w, hw, -⟩ := (hg.index u.label slot).1 hs
    split
    · next hl =>
      rw [← hl, hs, Option.bind_some, Slots.get?_update, if_pos rfl, hw]
      rfl
    · next hl =>
      refine Option.bind_congr fun i hi => ?_
      rw [Slots.get?_update, if_neg (hg.slot_ne (Ne.symm hl) hi hs)]
  · next hn =>
    show ((g.index.insert u.label g.terms.next) label).bind (g.terms.insert u).get? = _
    rw [Lookup.insert_apply]
    split
    · next hl =>
      rw [if_pos hl.symm, Option.bind_some, Slots.get?_insert, if_pos rfl]
    · next hl =>
      rw [if_neg (Ne.symm hl)]
      refine Option.bind_congr fun i hi => ?_
      obtain ⟨w, hw⟩ := hg.index.holds hi
      rw [Slots.get?_insert, if_neg]
      rintro rfl
      rw [g.terms.get?_next] at hw
      cases hw

/-! ## Relations -/

/-- The relation of the link between two slots. -/
def linked? (g : Arena) (s t : Nat) : Option Relation :=
  (g.link? s t).map Link.relation

theorem isSome_linked? : (g.linked? s t).isSome ↔ (g.link? s t).isSome := by
  rw [linked?, Option.isSome_map]

theorem relation?_eq_bind (g : Arena) (a b : String) :
    g.relation? a b = (g.index a).bind fun s => (g.index b).bind fun t => g.linked? s t := by
  unfold relation? linked?
  cases g.index a <;> cases g.index b <;> rfl

theorem contains_of_relation? (hab : (g.relation? a b).isSome) :
    g.contains a = true ∧ g.contains b = true := by
  obtain ⟨s, t, hs, ht, -⟩ := relation?_isSome.1 hab
  exact ⟨contains_eq_true_iff.2 ⟨s, hs⟩, contains_eq_true_iff.2 ⟨t, ht⟩⟩

/-- What is no term is not related. -/
theorem relation?_eq_none (h : g.contains a = false ∨ g.contains b = false) :
    g.relation? a b = none := by
  rw [← Option.not_isSome_iff_eq_none]
  intro hab
  obtain ⟨ha, hb⟩ := contains_of_relation? hab
  rw [ha, hb] at h
  exact h.elim nofun nofun

/-- A look-up finds the relation of the one link between two slots. -/
theorem linked?_eq_some (hp : OncePerPair g.links) {r : Relation} :
    g.linked? s t = some r ↔ ∃ i, g.links.get? i = some ⟨s, t, r⟩ := by
  unfold linked?
  rw [Option.map_eq_some_iff]
  constructor
  · rintro ⟨k, hk, rfl⟩
    obtain ⟨⟨i, l⟩, hf, rfl⟩ := Option.map_eq_some_iff.1 hk
    have hjoins := List.find?_some hf
    simp only [Link.joins, Bool.and_eq_true, beq_iff_eq] at hjoins
    obtain ⟨rfl, rfl⟩ := hjoins
    exact ⟨i, Slots.get?_eq_some.2 (List.mem_of_find?_eq_some hf)⟩
  · rintro ⟨i, hi⟩
    obtain ⟨k, hk⟩ := Option.isSome_iff_exists.1 (link?_isSome.2 ⟨i, _, hi, rfl, rfl⟩)
    obtain ⟨⟨j, l⟩, hf, rfl⟩ := Option.map_eq_some_iff.1 hk
    have hjoins := List.find?_some hf
    simp only [Link.joins, Bool.and_eq_true, beq_iff_eq] at hjoins
    have hl := Slots.get?_eq_some.2 (List.mem_of_find?_eq_some hf)
    obtain rfl := hp _ _ _ _ hi hl hjoins.1.symm hjoins.2.symm
    rw [hi] at hl
    exact ⟨l, hk, by rw [← Option.some.inj hl]⟩

/-- **A look-up finds the relation of an arc.** -/
theorem Valid.relation?_eq_some (hg : g.Valid) {r : Relation} :
    g.relation? a b = some r ↔ ⟨a, b, r⟩ ∈ g.arcList := by
  rw [relation?_eq_bind, mem_arcList]
  simp only [Option.bind_eq_some_iff, linked?_eq_some hg.pairs]
  constructor
  · rintro ⟨s, hs, t, ht, i, hi⟩
    refine ⟨i, _, hi, ?_⟩
    rw [arcOf, hg.labelAt_of_index hs, hg.labelAt_of_index ht]
  · rintro ⟨i, k, hi, ha⟩
    obtain ⟨hs, ht⟩ := hg.ends i k hi
    cases ha
    exact ⟨k.source, hg.index_labelAt hs, k.target, hg.index_labelAt ht, i, hi⟩

/-- Links keep their ends where labels keep their slots. -/
theorem Grows.arcOf_eq (hgh : Grows g h) (hg : g.Valid) (hh : h.Valid) {i : Nat} {k : Link}
    (hk : g.links.get? i = some k) : h.arcOf k = g.arcOf k := by
  obtain ⟨hs, ht⟩ := hg.ends i k hk
  have hlabel : ∀ {slot}, Holds g.terms slot → h.labelAt slot = g.labelAt slot := fun hslot =>
    hh.labelAt_of_index (hgh.index _ _ (hg.index_labelAt hslot))
  rw [arcOf, arcOf, hlabel hs, hlabel ht]

/-- Arenas that keep their slots and links keep the arcs. -/
theorem Grows.arcList_eq (hgh : Grows g h) (hg : g.Valid) (hh : h.Valid)
    (hl : h.links = g.links) : h.arcList = g.arcList := by
  rw [arcList, arcList, hl]
  refine List.map_congr_left fun k hk => ?_
  obtain ⟨i, hi⟩ := Slots.mem_toList.1 hk
  exact hgh.arcOf_eq hg hh hi

theorem Grows.relation?_eq (hgh : Grows g h) (hg : g.Valid) (hh : h.Valid)
    (hl : h.links = g.links) : h.relation? a b = g.relation? a b := by
  refine Option.ext fun r => ?_
  rw [hh.relation?_eq_some, hg.relation?_eq_some, hgh.arcList_eq hg hh hl]

/-- The links after one was put are the new one and those of other pairs. -/
theorem exists_get?_putLink {k l : Link} : (∃ i, (g.putLink k).links.get? i = some l) ↔
    l = k ∨ (∃ i, g.links.get? i = some l) ∧ ¬(l.source = k.source ∧ l.target = k.target) := by
  constructor
  · rintro ⟨i, hi⟩
    exact (get?_putLink hi).imp_right fun h => ⟨⟨i, h.1⟩, h.2⟩
  · rintro (rfl | ⟨⟨i, hi⟩, hne⟩)
    · obtain ⟨i, m, hm, hs, ht⟩ := link?_isSome.1
        ((link?_putLink_isSome (g := g) l).2 (Or.inr ⟨rfl, rfl⟩))
      rcases get?_putLink hm with rfl | ⟨-, hne⟩
      · exact ⟨i, hm⟩
      · exact absurd ⟨hs, ht⟩ hne
    · unfold putLink
      split
      · refine ⟨i, ?_⟩
        rw [Slots.get?_map, hi, Option.map_some, if_neg]
        simpa [Link.joins] using hne
      · refine ⟨i, ?_⟩
        rw [Slots.get?_insert, if_neg, hi]
        rintro rfl
        rw [g.links.get?_next] at hi
        cases hi

/-- **A link that is put gives its pair its relation, and the other pairs stay.** -/
theorem linked?_putLink (hp : OncePerPair g.links) (k : Link) :
    (g.putLink k).linked? s t =
      if k.source = s ∧ k.target = t then some k.relation else g.linked? s t := by
  refine Option.ext fun r => ?_
  rw [linked?_eq_some (hp.putLink k), exists_get?_putLink]
  split
  · next hk =>
    obtain ⟨rfl, rfl⟩ := hk
    constructor
    · rintro (h | ⟨-, h⟩)
      · rw [← h]
      · exact absurd ⟨rfl, rfl⟩ h
    · intro h
      exact Or.inl (by rw [← Option.some.inj h])
  · next hk =>
    rw [linked?_eq_some hp]
    constructor
    · rintro (rfl | ⟨h, -⟩)
      · exact absurd ⟨rfl, rfl⟩ hk
      · exact h
    · exact fun h => Or.inr ⟨h, fun hst => hk ⟨hst.1.symm, hst.2.symm⟩⟩

/-- What a run of links leaves at a pair that they agree on. -/
theorem linked?_foldl_putLink (hp : OncePerPair g.links) {ks : List Link} {o : Option Relation}
    (ho : ∀ r, ⟨s, t, r⟩ ∈ ks ↔ o = some r) :
    (ks.foldl putLink g).linked? s t = o.or (g.linked? s t) := by
  refine foldl_overwrites (I := fun g : Arena => OncePerPair g.links) (f := fun g => g.linked? s t)
    (p := fun k => if k.source = s ∧ k.target = t then some k.relation else none)
    (fun g k hp => hp.putLink k) (fun g k hp => ?_) (fun r => ?_) hp
  · rw [linked?_putLink hp]
    split <;> rfl
  · rw [← ho r]
    constructor
    · rintro ⟨k, hk, he⟩
      split at he
      · next hst =>
        obtain ⟨rfl, rfl⟩ := hst
        rwa [← Option.some.inj he]
      · cases he
    · exact fun hk => ⟨_, hk, if_pos ⟨rfl, rfl⟩⟩

/-- **A slot that is vacated has no link any more, and the other pairs stay.** -/
theorem linked?_vacate (hp : OncePerPair g.links) (slot : Nat) :
    (g.vacate slot).linked? s t = if s = slot ∨ t = slot then none else g.linked? s t := by
  refine Option.ext fun r => ?_
  have hvacated : OncePerPair (g.vacate slot).links := (hp.eraseWhere _).eraseWhere _
  rw [linked?_eq_some hvacated]
  simp only [vacate, Slots.get?_eraseWhere_eq_some, beq_eq_false_iff_ne]
  split
  · next h => exact iff_of_false (fun ⟨_, ⟨_, hs⟩, ht⟩ => h.elim hs ht) nofun
  · next h =>
    rw [linked?_eq_some hp]
    rw [not_or] at h
    exact exists_congr fun i => by rw [and_assoc, and_iff_left h]

end Arena

end Ontogram
