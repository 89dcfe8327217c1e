import Ontogram.Proofs.TermGraph.Lookup

/-!
# A rename makes two labels one

A rename takes the term of the old label to the new one, with its attributes and its relations.
Where the new label is taken, both terms become one: what the old one was related by is carried over
and overwrites, what only the other was related by stays, and a relation within the two becomes a
loop.

* `IsQuotient` — one arena is another in which an old label has become a new one.
* `Valid.isQuotient_rename`, `isQuotient_mergeInto` — to a label that is free, or taken.
* `TermGraph.relabel?_isQuotient` — a rename gives the quotient, or nothing without the term.
-/

namespace Ontogram.Arena

variable {g h : Arena} {old new a b : String} {source target i j : Nat}

/-- Says that an arena is another one in which the old label has become the new one. -/
structure IsQuotient (old new : String) (g h : Arena) : Prop where
  contains : ∀ label, h.contains label = true ↔
    label = new ∨ label ≠ old ∧ g.contains label = true
  /-- The new label has the attributes of the old one. -/
  merged : h.term? new = (g.term? old).map fun t => { t with label := new }
  others : ∀ label, label ≠ old → label ≠ new → h.term? label = g.term? label
  relation : ∀ a b, a ≠ old → a ≠ new → b ≠ old → b ≠ new →
    h.relation? a b = g.relation? a b
  /-- What is carried over goes before what is there. -/
  outgoing : ∀ b, b ≠ old → b ≠ new →
    h.relation? new b = (g.relation? old b).or (g.relation? new b)
  incoming : ∀ a, a ≠ old → a ≠ new →
    h.relation? a new = (g.relation? a old).or (g.relation? a new)
  loop : (h.relation? new new).isSome ↔ (g.relation? old old).isSome ∨
    (g.relation? old new).isSome ∨ (g.relation? new old).isSome ∨ (g.relation? new new).isSome

/-- **A related pair stays related under its new labels.** -/
theorem IsQuotient.relation?_isSome (hq : IsQuotient old new g h)
    (hab : (g.relation? a b).isSome) :
    (h.relation? (if old = a then new else a) (if old = b then new else b)).isSome := by
  have hone : ∀ {x}, x = old ∨ x = new → (if old = x then new else x) = new := by
    rintro x (rfl | rfl) <;> simp
  have hother : ∀ {x}, ¬(x = old ∨ x = new) →
      x ≠ old ∧ x ≠ new ∧ (if old = x then new else x) = x := by
    intro x hx
    rw [not_or] at hx
    exact ⟨hx.1, hx.2, if_neg (Ne.symm hx.1)⟩
  by_cases ha : a = old ∨ a = new <;> by_cases hb : b = old ∨ b = new
  · rw [hone ha, hone hb, hq.loop]
    rcases ha with rfl | rfl <;> rcases hb with rfl | rfl <;> simp [hab]
  · obtain ⟨hbo, hbn, hb⟩ := hother hb
    rw [hone ha, hb, hq.outgoing b hbo hbn, Option.isSome_or]
    rcases ha with rfl | rfl <;> simp [hab]
  · obtain ⟨hao, han, ha⟩ := hother ha
    rw [ha, hone hb, hq.incoming a hao han, Option.isSome_or]
    rcases hb with rfl | rfl <;> simp [hab]
  · obtain ⟨hao, han, ha⟩ := hother ha
    obtain ⟨hbo, hbn, hb⟩ := hother hb
    rwa [ha, hb, hq.relation a b hao han hbo hbn]

/-- **What is related had old labels that are related.** -/
theorem IsQuotient.exists_relation? (hq : IsQuotient old new g h) {x y : String}
    (hxy : (h.relation? x y).isSome) :
    ∃ a b, (if old = a then new else a) = x ∧ (if old = b then new else b) = y ∧
      (g.relation? a b).isSome := by
  have hboth : (if old = old then new else old) = new ∧ (if old = new then new else new) = new :=
    ⟨if_pos rfl, ite_id new⟩
  -- A label other than the new one is not the old one, so it was there before.
  have hother : ∀ {z}, h.contains z = true → z ≠ new →
      z ≠ old ∧ (if old = z then new else z) = z := by
    intro z hz hne
    have hold := (((hq.contains z).1 hz).resolve_left hne).1
    exact ⟨hold, if_neg (Ne.symm hold)⟩
  obtain ⟨hx, hy⟩ := contains_of_relation? hxy
  by_cases hxn : x = new <;> by_cases hyn : y = new
  · subst hxn hyn
    rcases hq.loop.1 hxy with hab | hab | hab | hab
    · exact ⟨_, _, hboth.1, hboth.1, hab⟩
    · exact ⟨_, _, hboth.1, hboth.2, hab⟩
    · exact ⟨_, _, hboth.2, hboth.1, hab⟩
    · exact ⟨_, _, hboth.2, hboth.2, hab⟩
  · subst hxn
    obtain ⟨hyo, hlabel⟩ := hother hy hyn
    rw [hq.outgoing y hyo hyn, Option.isSome_or, Bool.or_eq_true] at hxy
    rcases hxy with hab | hab
    · exact ⟨_, y, hboth.1, hlabel, hab⟩
    · exact ⟨_, y, hboth.2, hlabel, hab⟩
  · subst hyn
    obtain ⟨hxo, hlabel⟩ := hother hx hxn
    rw [hq.incoming x hxo hxn, Option.isSome_or, Bool.or_eq_true] at hxy
    rcases hxy with hab | hab
    · exact ⟨x, _, hlabel, hboth.1, hab⟩
    · exact ⟨x, _, hlabel, hboth.2, hab⟩
  · obtain ⟨hxo, hlabel⟩ := hother hx hxn
    obtain ⟨hyo, hlabel'⟩ := hother hy hyn
    rw [hq.relation x y hxo hxn hyo hyn] at hxy
    exact ⟨x, y, hlabel, hlabel', hxy⟩

/-! ## A free label -/

theorem index_rename (g : Arena) (slot : Nat) (old new label : String) :
    (g.rename slot old new).index label =
      if label = new then some slot else if label = old then none else g.index label := rfl

theorem index_rename_of_ne (g : Arena) (slot : Nat) {label : String} (ho : label ≠ old)
    (hn : label ≠ new) : (g.rename slot old new).index label = g.index label := by
  rw [index_rename, if_neg hn, if_neg ho]

/-- A rename to a free label moves no link. -/
theorem linked?_rename (g : Arena) (slot i j : Nat) :
    (g.rename slot old new).linked? i j = g.linked? i j := rfl

theorem Valid.isQuotient_rename (hg : g.Valid) (hne : old ≠ new) (ho : g.index old = some source)
    (hn : g.index new = none) : IsQuotient old new g (g.rename source old new) := by
  have hnew : (g.rename source old new).index new = some source := if_pos rfl
  have hout : ∀ b, g.relation? new b = none := fun b => by rw [relation?_eq_bind, hn]; rfl
  have hin : ∀ a, g.relation? a new = none := fun a =>
    relation?_eq_none (Or.inr (by rw [contains, hn]; rfl))
  constructor
  · exact contains_relabel? (by rw [Arena.relabel?, if_neg hne, ho, hn])
  · show ((g.rename source old new).index new).bind _ = Option.map _ ((g.index old).bind _)
    rw [hnew, ho, Option.bind_some, Option.bind_some]
    exact (Slots.get?_update _ _ _ _).trans (if_pos rfl)
  · intro label hlo hln
    unfold term?
    rw [index_rename_of_ne g source hlo hln]
    refine Option.bind_congr fun i hi => ?_
    exact (Slots.get?_update _ _ _ _).trans (if_neg (hg.slot_ne hlo hi ho))
  · intro a b hao han hbo hbn
    rw [relation?_eq_bind, relation?_eq_bind, index_rename_of_ne g source hao han,
      index_rename_of_ne g source hbo hbn]
    rfl
  · intro b hbo hbn
    rw [hout, Option.or_none, relation?_eq_bind, relation?_eq_bind, hnew, ho,
      index_rename_of_ne g source hbo hbn]
    rfl
  · intro a hao han
    rw [hin, Option.or_none, relation?_eq_bind, relation?_eq_bind, hnew, ho,
      index_rename_of_ne g source hao han]
    rfl
  · rw [hout, hout, hin, relation?_eq_bind, relation?_eq_bind, hnew, ho]
    simp [linked?_rename]

/-! ## A taken label -/

/-- The links that are carried over join the other slot to what the old one was joined to. -/
theorem mem_carried (hp : OncePerPair g.links) {r : Relation} :
    ⟨i, j, r⟩ ∈ g.carried source target ↔
      (i = target ∧ ∃ t, g.linked? source t = some r ∧ redirect source target t = j) ∨
      (j = target ∧ ∃ s, g.linked? s source = some r ∧ redirect source target s = i) := by
  simp only [carried, List.mem_append, List.mem_map, List.mem_filter, Slots.mem_toList, beq_iff_eq,
    Link.mk.injEq, linked?_eq_some hp]
  constructor
  · rintro (⟨k, ⟨⟨n, hn⟩, rfl⟩, rfl, rfl, rfl⟩ | ⟨k, ⟨⟨n, hn⟩, rfl⟩, rfl, rfl, rfl⟩)
    · exact Or.inl ⟨rfl, k.target, ⟨n, hn⟩, rfl⟩
    · exact Or.inr ⟨rfl, k.source, ⟨n, hn⟩, rfl⟩
  · rintro (⟨rfl, t, ⟨n, hn⟩, rfl⟩ | ⟨rfl, s, ⟨n, hn⟩, rfl⟩)
    · exact Or.inl ⟨⟨source, t, r⟩, ⟨⟨n, hn⟩, rfl⟩, rfl, rfl, rfl⟩
    · exact Or.inr ⟨⟨s, source, r⟩, ⟨⟨n, hn⟩, rfl⟩, rfl, rfl, rfl⟩

theorem redirect_eq_iff_of_ne (hs : j ≠ source) (ht : j ≠ target) :
    redirect source target i = j ↔ i = j := by
  unfold redirect
  split
  · next hi => exact iff_of_false (Ne.symm ht) fun h => hs (h.symm.trans hi)
  · exact Iff.rfl

theorem redirect_eq_target_iff : redirect source target i = target ↔ i = source ∨ i = target := by
  unfold redirect
  split
  · next hi => exact iff_of_true rfl (Or.inl hi)
  · next hi => exact (or_iff_right hi).symm

section Taken

variable (hg : g.Valid) (hne : old ≠ new) (ho : g.index old = some source)
  (hn : g.index new = some target)

include hg ho in
/-- Before links are carried over, those of the old slot are gone. -/
theorem linked?_forget_moveTerm : ((g.forget old).moveTerm source target new).linked? i j =
    if i = source ∨ j = source then none else g.linked? i j := by
  obtain ⟨t, ht⟩ := hg.index.holds ho
  have hm : (g.forget old).terms.get? source = some t := ht
  unfold moveTerm
  rw [hm]
  exact linked?_vacate (g := g.forget old) hg.pairs source

include hg hne ho hn

/-- **Links apart from both slots stay.** -/
theorem linked?_mergeInto (his : i ≠ source) (hit : i ≠ target) (hjs : j ≠ source)
    (hjt : j ≠ target) : (g.mergeInto source target old new).linked? i j = g.linked? i j := by
  have hnone : ∀ r, ⟨i, j, r⟩ ∈ g.carried source target ↔ (none : Option Relation) = some r := by
    intro r
    simp [mem_carried hg.pairs, hit, hjt]
  have hbase := (hg.forget_moveTerm hne ho hn).pairs
  rw [mergeInto, linked?_foldl_putLink hbase hnone, linked?_forget_moveTerm hg ho]
  simp [his, hjs]

/-- **Links from the old slot go before those from the other.** -/
theorem linked?_mergeInto_outgoing (hjs : j ≠ source) (hjt : j ≠ target) :
    (g.mergeInto source target old new).linked? target j =
      (g.linked? source j).or (g.linked? target j) := by
  have hcarried : ∀ r, ⟨target, j, r⟩ ∈ g.carried source target ↔ g.linked? source j = some r := by
    intro r
    simp [mem_carried hg.pairs, redirect_eq_iff_of_ne hjs hjt, hjt]
  have hbase := (hg.forget_moveTerm hne ho hn).pairs
  rw [mergeInto, linked?_foldl_putLink hbase hcarried, linked?_forget_moveTerm hg ho]
  simp [hjs, (hg.slot_ne hne ho hn).symm]

/-- **Links to the old slot go before those to the other.** -/
theorem linked?_mergeInto_incoming (his : i ≠ source) (hit : i ≠ target) :
    (g.mergeInto source target old new).linked? i target =
      (g.linked? i source).or (g.linked? i target) := by
  have hcarried : ∀ r, ⟨i, target, r⟩ ∈ g.carried source target ↔ g.linked? i source = some r := by
    intro r
    simp [mem_carried hg.pairs, redirect_eq_iff_of_ne his hit, hit]
  have hbase := (hg.forget_moveTerm hne ho hn).pairs
  rw [mergeInto, linked?_foldl_putLink hbase hcarried, linked?_forget_moveTerm hg ho]
  simp [his, (hg.slot_ne hne ho hn).symm]

/-- **A link within both slots becomes a loop.** -/
theorem isSome_linked?_mergeInto_loop :
    ((g.mergeInto source target old new).linked? target target).isSome ↔
      (g.linked? source source).isSome ∨ (g.linked? source target).isSome ∨
        (g.linked? target source).isSome ∨ (g.linked? target target).isSome := by
  have hcarried : (∃ k ∈ g.carried source target, k.source = target ∧ k.target = target) ↔
      ∃ r, ⟨target, target, r⟩ ∈ g.carried source target := by
    constructor
    · rintro ⟨⟨s, t, r⟩, hk, hs, ht⟩
      obtain rfl : s = target := hs
      obtain rfl : t = s := ht
      exact ⟨r, hk⟩
    · rintro ⟨r, hr⟩
      exact ⟨_, hr, rfl, rfl⟩
  have hbase : (((g.forget old).moveTerm source target new).linked? target target).isSome ↔
      (g.linked? target target).isSome := by
    rw [linked?_forget_moveTerm hg ho, if_neg]
    simp [(hg.slot_ne hne ho hn).symm]
  rw [isSome_linked?] at hbase ⊢
  rw [mergeInto, link?_foldl_putLink_isSome, hbase, hcarried]
  simp only [mem_carried hg.pairs, redirect_eq_target_iff, true_and, Option.isSome_iff_exists]
  grind

/-- The other slot has the term of the old one, under the new label. -/
theorem get?_mergeInto : (g.mergeInto source target old new).terms.get? i =
    if i = target then (g.terms.get? source).map fun t => { t with label := new }
    else if i = source then none else g.terms.get? i := by
  obtain ⟨t, ht⟩ := hg.index.holds ho
  obtain ⟨u, hu⟩ := hg.index.holds hn
  have hm : (g.forget old).terms.get? source = some t := ht
  have hst := (hg.slot_ne hne ho hn).symm
  rw [mergeInto, foldl_putLink_terms, moveTerm, hm]
  refine (Slots.get?_update _ _ _ _).trans ?_
  simp only [vacate, forget, Slots.get?_erase]
  split
  · next hi => rw [hi, if_neg hst, hu, ht]; rfl
  · rfl

theorem isQuotient_mergeInto :
    IsQuotient old new g (g.mergeInto source target old new) := by
  have hst := hg.slot_ne hne ho hn
  have hnew : (g.mergeInto source target old new).index new = some target := by
    rw [index_mergeInto, Lookup.erase_apply, if_neg hne.symm, hn]
  have hindex : ∀ {label}, label ≠ old →
      (g.mergeInto source target old new).index label = g.index label := fun hl => by
    rw [index_mergeInto, Lookup.erase_apply, if_neg hl]
  have hslot : ∀ {label slot}, label ≠ old → label ≠ new → g.index label = some slot →
      slot ≠ source ∧ slot ≠ target := fun hlo hln hl =>
    ⟨hg.slot_ne hlo hl ho, hg.slot_ne hln hl hn⟩
  constructor
  · exact contains_relabel? (by rw [Arena.relabel?, if_neg hne, ho, hn])
  · simp only [term?, hnew, ho, Option.bind_some]
    exact (get?_mergeInto hg hne ho hn).trans (if_pos rfl)
  · intro label hlo hln
    unfold term?
    rw [hindex hlo]
    refine Option.bind_congr fun i hi => ?_
    obtain ⟨his, hit⟩ := hslot hlo hln hi
    rw [get?_mergeInto hg hne ho hn, if_neg hit, if_neg his]
  · intro a b hao han hbo hbn
    rw [relation?_eq_bind, relation?_eq_bind, hindex hao, hindex hbo]
    refine Option.bind_congr fun s hs => Option.bind_congr fun t ht => ?_
    obtain ⟨hss, hst⟩ := hslot hao han hs
    obtain ⟨hts, htt⟩ := hslot hbo hbn ht
    exact linked?_mergeInto hg hne ho hn hss hst hts htt
  · intro b hbo hbn
    simp only [relation?_eq_bind, hnew, ho, hn, hindex hbo, Option.bind_some]
    cases ht : g.index b with
    | none => rfl
    | some t =>
      obtain ⟨hts, htt⟩ := hslot hbo hbn ht
      exact linked?_mergeInto_outgoing hg hne ho hn hts htt
  · intro a hao han
    simp only [relation?_eq_bind, hnew, ho, hn, hindex hao, Option.bind_some]
    cases hs : g.index a with
    | none => rfl
    | some s =>
      obtain ⟨hss, hst⟩ := hslot hao han hs
      exact linked?_mergeInto_incoming hg hne ho hn hss hst
  · simp only [relation?_eq_bind, hnew, ho, hn, Option.bind_some]
    exact isSome_linked?_mergeInto_loop hg hne ho hn

end Taken

/-- **A rename makes two labels one.** -/
theorem Valid.isQuotient_relabel? (hg : g.Valid) (hne : old ≠ new)
    (hr : g.relabel? old new = some h) : IsQuotient old new g h := by
  rcases relabel?_cases hr with ⟨he, -, -⟩ | ⟨-, source, ho, ⟨hn, rfl⟩ | ⟨target, hn, rfl⟩⟩
  · exact absurd he hne
  · exact hg.isQuotient_rename hne ho hn
  · exact isQuotient_mergeInto hg hne ho hn

end Ontogram.Arena

namespace Ontogram.TermGraph

/--
**A rename gives the quotient by its two labels.**

If there is a term of the old label, the rename succeeds, whether the new label is free or taken,
and gives the graph in which the old label has become the new one. If there is none, the rename
gives no graph at all, and the one that was there stays.
-/
theorem relabel?_isQuotient (g : TermGraph) {old new : String} (hne : old ≠ new) :
    (g.contains old = true → ∃ h : TermGraph, g.relabel? old new = some h ∧
      Arena.IsQuotient old new g.toArena h.toArena) ∧
    (g.contains old = false → ∀ label, g.relabel? old label = none) := by
  constructor
  · intro hc
    rw [← isSome_relabel? g old new, Option.isSome_iff_exists] at hc
    obtain ⟨h, hr⟩ := hc
    exact ⟨h, hr, g.valid.isQuotient_relabel? hne (relabel?_eq_some.1 hr)⟩
  · intro hc label
    rwa [← isSome_relabel? g old label, Option.isSome_eq_false_iff, Option.isNone_iff_eq_none] at hc

/-- Two terms that are both related to a third one, there and back, and to each other. -/
theorem relabel?_isQuotient_overlapping :
    let g := ((((empty.relate ⟨"a", "c", ⟨"p", false⟩⟩).relate ⟨"b", "c", ⟨"q", true⟩⟩).relate
      ⟨"c", "b", ⟨"r", true⟩⟩).relate ⟨"c", "a", ⟨"s", false⟩⟩).relate ⟨"a", "b", ⟨"t", false⟩⟩
    ∃ h, g.relabel? "a" "b" = some h ∧ h.relation? "b" "c" = some ⟨"p", false⟩ ∧
      h.relation? "c" "b" = some ⟨"s", false⟩ ∧ (h.relation? "b" "b").isSome := by
  intro g
  have hne : "a" ≠ "b" := by decide
  obtain ⟨h, hr, hq⟩ := (relabel?_isQuotient g hne).1 (by decide)
  refine ⟨h, hr, ?_, ?_, hq.loop.2 (Or.inr (Or.inl (by decide)))⟩
  · rw [hq.outgoing "c" (by decide) (by decide)]
    decide
  · rw [hq.incoming "c" (by decide) (by decide)]
    decide

end Ontogram.TermGraph
