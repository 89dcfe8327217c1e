import Ontogram.TermGraph.Rank

/-!
# Valid arenas

The invariant of an arena and the proof that every change keeps it. It has three parts, each about
two components at most, so that a change is looked at only where it touches them.

* `Indexes` — the index gives exactly the slots of the labels.
* `EndsLive` — both ends of every link are terms.
* `OncePerPair` — no two links join the same two slots.

The main statements are `Valid.ensure`, `Valid.relate`, `Valid.relabel?`, `Valid.remove?`,
`Valid.removeWhere`, `Valid.compose` and `valid_ofRows`.
-/

namespace Ontogram.Arena

variable {g h : Arena} {terms : Slots Term} {links : Slots Link} {index : Lookup String Nat}

/-- The index gives the slot of a label and of nothing else. -/
def Indexes (index : Lookup String Nat) (terms : Slots Term) : Prop :=
  ∀ label slot, index label = some slot ↔ ∃ t, terms.get? slot = some t ∧ t.label = label

/-- Says that a slot holds a term. -/
def Holds (terms : Slots Term) (slot : Nat) : Prop :=
  ∃ t, terms.get? slot = some t

/-- Both ends of every link are terms. -/
def EndsLive (links : Slots Link) (terms : Slots Term) : Prop :=
  ∀ i k, links.get? i = some k → Holds terms k.source ∧ Holds terms k.target

/-- No two links join the same slots in the same order. -/
def OncePerPair (links : Slots Link) : Prop :=
  ∀ i j k l, links.get? i = some k → links.get? j = some l →
    k.source = l.source → k.target = l.target → i = j

/-- What the parts of an arena promise each other. -/
structure Valid (g : Arena) : Prop where
  index : Indexes g.index g.terms
  ends : EndsLive g.links g.terms
  pairs : OncePerPair g.links

/-! ## The index -/

theorem Indexes.holds (hi : Indexes index terms) {label : String} {slot : Nat}
    (hl : index label = some slot) : Holds terms slot := by
  obtain ⟨t, ht, -⟩ := (hi label slot).1 hl
  exact ⟨t, ht⟩

theorem Indexes.insert (hi : Indexes index terms) {t : Term} (ht : index t.label = none) :
    Indexes (index.insert t.label terms.next) (terms.insert t) := by
  intro label slot
  have hn := terms.get?_next
  have hs := hi label slot
  have hnew := hi t.label slot
  grind

/-- A change of values that keeps the labels keeps the index. -/
theorem Indexes.map (hi : Indexes index terms) {f : Nat → Term → Term}
    (hf : ∀ i t, terms.get? i = some t → (f i t).label = t.label) :
    Indexes index (terms.map f) := by
  intro label slot
  rw [hi label slot, Slots.get?_map]
  constructor
  · rintro ⟨t, ht, hl⟩
    exact ⟨f slot t, by rw [ht]; rfl, (hf slot t ht).trans hl⟩
  · rintro ⟨u, hu, hl⟩
    obtain ⟨t, ht, rfl⟩ := Option.map_eq_some_iff.1 hu
    exact ⟨t, ht, (hf slot t ht).symm.trans hl⟩

/-- A term that takes the place of one with its label keeps the index. -/
theorem Indexes.update (hi : Indexes index terms) {slot : Nat} {t : Term}
    (ht : index t.label = some slot) : Indexes index (terms.update slot fun _ => t) := by
  refine hi.map fun i u hu => ?_
  obtain ⟨v, hv, hl⟩ := (hi t.label slot).1 ht
  split
  · next he =>
    rw [he, hv] at hu
    rw [← Option.some.inj hu, hl]
  · rfl

theorem Indexes.erase (hi : Indexes index terms) {label : String} {slot : Nat}
    (hl : index label = some slot) : Indexes (index.erase label) (terms.erase slot) := by
  intro l i
  have h1 := hi l i
  have h2 := hi label slot
  have h3 := hi l slot
  grind

theorem Indexes.rename (hi : Indexes index terms) {old new : String} {slot : Nat}
    (ho : index old = some slot) (hn : index new = none) :
    Indexes ((index.erase old).insert new slot)
      (terms.update slot fun t => { t with label := new }) := by
  intro l i
  have h1 := hi l i
  have h2 := hi old slot
  have h3 := hi new i
  have h4 := hi l slot
  grind

/-! ## The ends of the links -/

theorem Holds.insert {slot : Nat} (hs : Holds terms slot) (t : Term) :
    Holds (terms.insert t) slot := by
  obtain ⟨u, hu⟩ := hs
  refine ⟨u, ?_⟩
  rw [Slots.get?_insert, if_neg, hu]
  rintro rfl
  rw [terms.get?_next] at hu
  cases hu

theorem holds_insert_next (terms : Slots Term) (t : Term) : Holds (terms.insert t) terms.next :=
  ⟨t, by rw [Slots.get?_insert, if_pos rfl]⟩

theorem Holds.map {slot : Nat} (hs : Holds terms slot) (f : Nat → Term → Term) :
    Holds (terms.map f) slot := by
  obtain ⟨u, hu⟩ := hs
  exact ⟨f slot u, by rw [Slots.get?_map, hu]; rfl⟩

theorem EndsLive.mono {terms' : Slots Term} (he : EndsLive links terms)
    (hm : ∀ i, Holds terms i → Holds terms' i) : EndsLive links terms' := by
  intro i k hk
  obtain ⟨h1, h2⟩ := he i k hk
  exact ⟨hm _ h1, hm _ h2⟩

theorem EndsLive.erase (he : EndsLive links terms) (slot : Nat) :
    EndsLive ((links.eraseWhere fun _ k => k.source == slot).eraseWhere fun _ k => k.target == slot)
      (terms.erase slot) := by
  intro i k hk
  simp only [Slots.get?_eraseWhere_eq_some, beq_eq_false_iff_ne] at hk
  obtain ⟨⟨hk, hs⟩, ht⟩ := hk
  obtain ⟨⟨t, h1⟩, u, h2⟩ := he i k hk
  exact ⟨⟨t, by rw [Slots.get?_erase, if_neg hs, h1]⟩, u, by rw [Slots.get?_erase, if_neg ht, h2]⟩

/-! ## One link a pair -/

theorem link?_isSome {s t : Nat} :
    (g.link? s t).isSome ↔ ∃ i k, g.links.get? i = some k ∧ k.source = s ∧ k.target = t := by
  unfold link? Link.joins
  rw [Option.isSome_map, List.find?_isSome]
  constructor
  · rintro ⟨⟨i, k⟩, hm, hj⟩
    simp only [Bool.and_eq_true, beq_iff_eq] at hj
    exact ⟨i, k, Slots.get?_eq_some.2 hm, hj⟩
  · rintro ⟨i, k, hk, rfl, rfl⟩
    exact ⟨(i, k), Slots.get?_eq_some.1 hk, by simp⟩

theorem OncePerPair.eraseWhere (hp : OncePerPair links) (p : Nat → Link → Bool) :
    OncePerPair (links.eraseWhere p) := by
  intro i j k l hk hl
  exact hp i j k l (Slots.get?_eraseWhere_eq_some.1 hk).1 (Slots.get?_eraseWhere_eq_some.1 hl).1

/-- What the slots hold after a link was put: every link is the new one or an old one, and an old
one that joins other slots is still there. -/
theorem get?_putLink {k l : Link} {i : Nat} (hl : (g.putLink k).links.get? i = some l) :
    l = k ∨ g.links.get? i = some l ∧ ¬ (l.source = k.source ∧ l.target = k.target) := by
  unfold putLink at hl
  split at hl
  · simp only [Slots.get?_map, Option.map_eq_some_iff, Link.joins, Bool.and_eq_true,
      beq_iff_eq] at hl
    obtain ⟨m, hm, rfl⟩ := hl
    split
    · exact Or.inl rfl
    · next hj => exact Or.inr ⟨hm, hj⟩
  · next hnone =>
    rw [link?_isSome] at hnone
    simp only [Slots.get?_insert] at hl
    grind

theorem putLink_terms (g : Arena) (k : Link) : (g.putLink k).terms = g.terms := by
  unfold putLink
  split <;> rfl

theorem putLink_index (g : Arena) (k : Link) : (g.putLink k).index = g.index := by
  unfold putLink
  split <;> rfl

theorem OncePerPair.putLink (hp : OncePerPair g.links) (k : Link) :
    OncePerPair (g.putLink k).links := by
  unfold Arena.putLink
  split
  · intro i j l m hl hm hs ht
    simp only [Slots.get?_map, Option.map_eq_some_iff, Link.joins, Bool.and_eq_true,
      beq_iff_eq] at hl hm
    obtain ⟨l', hl', rfl⟩ := hl
    obtain ⟨m', hm', rfl⟩ := hm
    refine hp i j l' m' hl' hm' ?_ ?_ <;> grind
  · next hnone =>
    rw [link?_isSome] at hnone
    intro i j l m hl hm hs ht
    have hij := hp i j l m
    simp only [Slots.get?_insert] at hl hm
    grind

/-! ## Reading -/

theorem labelAt_eq {slot : Nat} {t : Term} (ht : g.terms.get? slot = some t) :
    g.labelAt slot = t.label := by
  unfold labelAt
  rw [ht]
  rfl

theorem Valid.index_labelAt (hg : g.Valid) {slot : Nat} (hs : Holds g.terms slot) :
    g.index (g.labelAt slot) = some slot := by
  obtain ⟨t, ht⟩ := hs
  exact (hg.index _ slot).2 ⟨t, ht, (labelAt_eq ht).symm⟩

theorem Valid.labelAt_of_index (hg : g.Valid) {label : String} {slot : Nat}
    (hl : g.index label = some slot) : g.labelAt slot = label := by
  obtain ⟨t, ht, rfl⟩ := (hg.index label slot).1 hl
  exact labelAt_eq ht

theorem Valid.labelAt_inj (hg : g.Valid) {i j : Nat} (hi : Holds g.terms i)
    (hj : Holds g.terms j) (he : g.labelAt i = g.labelAt j) : i = j := by
  have h1 := hg.index_labelAt hi
  rw [he, hg.index_labelAt hj] at h1
  exact (Option.some.inj h1).symm

/-- The terms that are listed are the terms of the index. -/
theorem Valid.mem_labels (hg : g.Valid) {label : String} :
    label ∈ g.labels ↔ g.contains label = true := by
  unfold labels termList contains
  rw [List.mem_map, Option.isSome_iff_exists]
  constructor
  · rintro ⟨t, ht, rfl⟩
    obtain ⟨slot, hs⟩ := Slots.mem_toList.1 ht
    exact ⟨slot, (hg.index _ slot).2 ⟨t, hs, rfl⟩⟩
  · rintro ⟨slot, hs⟩
    obtain ⟨t, ht, rfl⟩ := (hg.index label slot).1 hs
    exact ⟨t, Slots.mem_toList.2 ⟨slot, ht⟩, rfl⟩

/-- **Labels are unique.** -/
theorem Valid.labels_nodup (hg : g.Valid) : g.labels.Nodup := by
  unfold labels termList Slots.toList List.Nodup
  rw [List.map_map, List.pairwise_map]
  refine g.terms.entries_sorted.imp_of_mem fun {a b} ha hb hlt he => ?_
  have h1 := (hg.index a.2.label a.1).2 ⟨a.2, Slots.mem_entries.1 ha, rfl⟩
  have h2 := (hg.index b.2.label b.1).2 ⟨b.2, Slots.mem_entries.1 hb, rfl⟩
  change a.2.label = b.2.label at he
  rw [he, h2] at h1
  exact Nat.lt_irrefl _ (Option.some.inj h1 ▸ hlt)

theorem length_labels (g : Arena) : g.labels.length = g.size :=
  (List.length_map _).trans g.terms.length_toList

theorem mem_arcList {a : Arc} :
    a ∈ g.arcList ↔ ∃ i k, g.links.get? i = some k ∧ g.arcOf k = a := by
  unfold arcList
  rw [List.mem_map]
  constructor
  · rintro ⟨k, hk, ha⟩
    obtain ⟨i, hi⟩ := Slots.mem_toList.1 hk
    exact ⟨i, k, hi, ha⟩
  · rintro ⟨i, k, hi, ha⟩
    exact ⟨k, Slots.mem_toList.2 ⟨i, hi⟩, ha⟩

theorem Valid.contains_labelAt (hg : g.Valid) {slot : Nat} (hs : Holds g.terms slot) :
    g.contains (g.labelAt slot) = true := by
  unfold contains
  rw [hg.index_labelAt hs]
  rfl

/-- The ends of the arcs are terms. -/
theorem Valid.contains_ends (hg : g.Valid) {a : Arc} (ha : a ∈ g.arcList) :
    g.contains a.parent = true ∧ g.contains a.child = true := by
  obtain ⟨i, k, hk, rfl⟩ := mem_arcList.1 ha
  obtain ⟨hs, ht⟩ := hg.ends i k hk
  exact ⟨hg.contains_labelAt hs, hg.contains_labelAt ht⟩

/-- **No pair is related twice.** -/
theorem Valid.pairs_nodup (hg : g.Valid) :
    (g.rows.map fun r => (r.parent, r.child)).Nodup := by
  unfold rows arcList Slots.toList List.Nodup
  rw [List.map_map, List.map_map, List.map_map, List.pairwise_map]
  refine g.links.entries_sorted.imp_of_mem fun {a b} ha hb hlt he => ?_
  have hka := Slots.mem_entries.1 ha
  have hkb := Slots.mem_entries.1 hb
  have hea := hg.ends a.1 a.2 hka
  have heb := hg.ends b.1 b.2 hkb
  change (g.labelAt a.2.source, g.labelAt a.2.target)
    = (g.labelAt b.2.source, g.labelAt b.2.target) at he
  have hs := hg.labelAt_inj hea.1 heb.1 (congrArg Prod.fst he)
  have ht := hg.labelAt_inj hea.2 heb.2 (congrArg Prod.snd he)
  exact Nat.ne_of_lt hlt (hg.pairs _ _ _ _ hka hkb hs ht)

/-! ## Single changes -/

theorem valid_empty : Valid empty where
  index := fun _ _ => ⟨nofun, fun ⟨_, h, _⟩ => nomatch h⟩
  ends := nofun
  pairs := nofun

theorem Valid.addTerm (hg : g.Valid) {t : Term} (ht : g.index t.label = none) :
    (g.addTerm t).Valid where
  index := hg.index.insert ht
  ends := hg.ends.mono fun _ hi => hi.insert t
  pairs := hg.pairs

theorem Valid.putLink (hg : g.Valid) {k : Link} (hs : Holds g.terms k.source)
    (ht : Holds g.terms k.target) : (g.putLink k).Valid where
  index := by
    rw [putLink_index, putLink_terms]
    exact hg.index
  ends := by
    intro i l hl
    rw [putLink_terms]
    rcases get?_putLink hl with rfl | ⟨hl, -⟩
    · exact ⟨hs, ht⟩
    · exact hg.ends i l hl
  pairs := hg.pairs.putLink k

/-- A change of terms in their slots that keeps the labels. -/
theorem Valid.mapTerms (hg : g.Valid) {f : Nat → Term → Term}
    (hf : ∀ i t, g.terms.get? i = some t → (f i t).label = t.label) :
    Valid { g with terms := g.terms.map f } where
  index := hg.index.map hf
  ends := hg.ends.mono fun _ hi => hi.map f
  pairs := hg.pairs

theorem Valid.forget_vacate (hg : g.Valid) {label : String} {slot : Nat}
    (hl : g.index label = some slot) : ((g.forget label).vacate slot).Valid where
  index := hg.index.erase hl
  ends := hg.ends.erase slot
  pairs := (hg.pairs.eraseWhere _).eraseWhere _

theorem Valid.rename (hg : g.Valid) {old new : String} {slot : Nat}
    (ho : g.index old = some slot) (hn : g.index new = none) :
    (g.rename slot old new).Valid where
  index := hg.index.rename ho hn
  ends := hg.ends.mono fun _ hi => hi.map _
  pairs := hg.pairs

/-- A term takes the place of the one of its label. -/
theorem Valid.updateTerm (hg : g.Valid) {t : Term} {slot : Nat} (ht : g.index t.label = some slot) :
    Valid { g with terms := g.terms.update slot fun _ => t } where
  index := hg.index.update ht
  ends := hg.ends.mono fun _ hi => hi.map _
  pairs := hg.pairs

/-! ## Adding -/

/-- The slot that `ensureSlot` gives is that of the label. -/
theorem ensureSlot_holds (hg : g.Valid) (label : String) :
    Holds (g.ensureSlot label).1.terms (g.ensureSlot label).2 := by
  unfold ensureSlot
  split
  · next slot hs => exact hg.index.holds hs
  · exact holds_insert_next _ _

theorem Holds.ensureSlot {slot : Nat} (hs : Holds g.terms slot) (label : String) :
    Holds (g.ensureSlot label).1.terms slot := by
  unfold Arena.ensureSlot
  split
  · exact hs
  · exact hs.insert _

theorem Valid.ensure (hg : g.Valid) (label : String) : (g.ensure label).Valid := by
  unfold Arena.ensure ensureSlot
  split
  · exact hg
  · next hn => exact hg.addTerm hn

theorem Valid.relate (hg : g.Valid) (a : Arc) : (g.relate a).Valid :=
  ((hg.ensure a.parent).ensure a.child).putLink ((ensureSlot_holds hg a.parent).ensureSlot a.child)
    (ensureSlot_holds (hg.ensure a.parent) a.child)

theorem Valid.putTerm (hg : g.Valid) (t : Term) : (g.putTerm t).1.Valid := by
  unfold Arena.putTerm
  split
  · next slot hs => exact hg.updateTerm hs
  · next hn => exact hg.addTerm hn

theorem putTerm_holds (hg : g.Valid) (t : Term) :
    Holds (g.putTerm t).1.terms (g.putTerm t).2 := by
  unfold putTerm
  split
  · next slot hs => exact (hg.index.holds hs).map _
  · exact holds_insert_next _ _

theorem Holds.putTerm {slot : Nat} (hs : Holds g.terms slot) (t : Term) :
    Holds (g.putTerm t).1.terms slot := by
  unfold Arena.putTerm
  split
  · exact hs.map _
  · exact hs.insert _

/-- Links between live slots can be put in turn. -/
theorem Valid.foldl_putLink (hg : g.Valid) {ks : List Link}
    (hk : ∀ k ∈ ks, Holds g.terms k.source ∧ Holds g.terms k.target) :
    (ks.foldl Arena.putLink g).Valid := by
  induction ks generalizing g with
  | nil => exact hg
  | cons k ks ih =>
    have h := hk k List.mem_cons_self
    refine ih (hg.putLink h.1 h.2) fun l hl => ?_
    rw [putLink_terms]
    exact hk l (List.mem_cons_of_mem _ hl)

/-! ## Removing -/

theorem Valid.remove? (hg : g.Valid) {label : String} (hr : g.remove? label = some h) :
    h.Valid := by
  obtain ⟨slot, hs, rfl⟩ := Option.map_eq_some_iff.1 hr
  exact hg.forget_vacate hs

theorem Valid.removeCounting {s : Arena × Nat} (hs : s.1.Valid) (label : String) :
    (removeCounting s label).1.Valid := by
  unfold Arena.removeCounting
  split
  · next hr => exact hs.remove? hr
  · exact hs

theorem Valid.foldl_removeCounting {s : Arena × Nat} (hs : s.1.Valid) (labels : List String) :
    (labels.foldl Arena.removeCounting s).1.Valid := by
  induction labels generalizing s with
  | nil => exact hs
  | cons label labels ih => exact ih (hs.removeCounting label)

theorem Valid.removeWhere (hg : g.Valid) (p : Term → Bool) : (g.removeWhere p).1.Valid :=
  Valid.foldl_removeCounting (s := (g, 0)) hg _

theorem Valid.retain (hg : g.Valid) (keep : List String) : (g.retain keep).Valid :=
  hg.removeWhere _

/-! ## Renaming -/

/-- A merge keeps every slot but the one that is merged. -/
theorem holds_moveTerm {source target slot : Nat} {label : String}
    (hs : Holds g.terms slot) (hne : slot ≠ source) :
    Holds (g.moveTerm source target label).terms slot := by
  unfold moveTerm
  split
  · obtain ⟨t, ht⟩ := hs
    exact Holds.map ⟨t, by rw [vacate, Slots.get?_erase, if_neg hne, ht]⟩ _
  · exact hs

theorem Valid.forget_moveTerm (hg : g.Valid) {old new : String} {source target : Nat}
    (hne : old ≠ new) (ho : g.index old = some source) (hn : g.index new = some target) :
    ((g.forget old).moveTerm source target new).Valid := by
  obtain ⟨t, ht⟩ := hg.index.holds ho
  have hm : (g.forget old).terms.get? source = some t := ht
  unfold moveTerm
  rw [hm]
  refine (hg.forget_vacate ho).updateTerm (t := { t with label := new }) ?_
  show g.index.erase old new = some target
  rw [Lookup.erase_apply, if_neg hne.symm, hn]

/-- The links that a merge carries over join live slots. -/
theorem carried_ends (hg : g.Valid) {source target : Nat} (hne : target ≠ source)
    (ht : Holds g.terms target) {k : Link} (hk : k ∈ g.carried source target) :
    (Holds g.terms k.source ∧ k.source ≠ source) ∧ Holds g.terms k.target ∧ k.target ≠ source := by
  have hend : ∀ i, Holds g.terms i →
      Holds g.terms (redirect source target i) ∧ redirect source target i ≠ source := by
    intro i hi
    unfold redirect
    split
    · exact ⟨ht, hne⟩
    · next hn => exact ⟨hi, hn⟩
  rcases List.mem_append.1 hk with hk | hk
  · obtain ⟨l, hl, rfl⟩ := List.mem_map.1 hk
    obtain ⟨i, hi⟩ := Slots.mem_toList.1 (List.mem_filter.1 hl).1
    exact ⟨⟨ht, hne⟩, hend _ (hg.ends i l hi).2⟩
  · obtain ⟨l, hl, rfl⟩ := List.mem_map.1 hk
    obtain ⟨i, hi⟩ := Slots.mem_toList.1 (List.mem_filter.1 hl).1
    exact ⟨hend _ (hg.ends i l hi).1, ht, hne⟩

/-- Two labels have two slots. -/
theorem Valid.slot_ne (hg : g.Valid) {l m : String} {i j : Nat} (hne : l ≠ m)
    (hi : g.index l = some i) (hj : g.index m = some j) : i ≠ j := by
  rintro rfl
  obtain ⟨t, ht, rfl⟩ := (hg.index l i).1 hi
  obtain ⟨u, hu, rfl⟩ := (hg.index m i).1 hj
  rw [ht] at hu
  exact hne (congrArg Term.label (Option.some.inj hu))

theorem Valid.mergeInto (hg : g.Valid) {old new : String} {source target : Nat} (hne : old ≠ new)
    (ho : g.index old = some source) (hn : g.index new = some target) :
    (g.mergeInto source target old new).Valid := by
  refine (hg.forget_moveTerm hne ho hn).foldl_putLink fun k hk => ?_
  obtain ⟨⟨h1, h2⟩, h3, h4⟩ :=
    carried_ends hg (hg.slot_ne hne ho hn).symm (hg.index.holds hn) hk
  exact ⟨holds_moveTerm (g := g.forget old) h1 h2, holds_moveTerm (g := g.forget old) h3 h4⟩

/-- What a rename does, by whether the new label is taken. -/
theorem relabel?_cases {old new : String} (hr : g.relabel? old new = some h) :
    (old = new ∧ (g.contains old = true) ∧ h = g) ∨
    (old ≠ new ∧ ∃ source, g.index old = some source ∧
      ((g.index new = none ∧ h = g.rename source old new) ∨
       ∃ target, g.index new = some target ∧ h = g.mergeInto source target old new)) := by
  unfold relabel? at hr
  split at hr
  · next he =>
    split at hr
    · next hc => exact Or.inl ⟨he, hc, (Option.some.inj hr).symm⟩
    · cases hr
  · next hne =>
    refine Or.inr ⟨hne, ?_⟩
    split at hr
    · cases hr
    · next source ho =>
      refine ⟨source, ho, ?_⟩
      split at hr
      · next hn => exact Or.inl ⟨hn, (Option.some.inj hr).symm⟩
      · next target hn => exact Or.inr ⟨target, hn, (Option.some.inj hr).symm⟩

theorem Valid.relabel? (hg : g.Valid) {old new : String} (hr : g.relabel? old new = some h) :
    h.Valid := by
  rcases relabel?_cases hr with ⟨-, -, rfl⟩ | ⟨hne, source, ho, ⟨hn, rfl⟩ | ⟨target, hn, rfl⟩⟩
  · exact hg
  · exact hg.rename ho hn
  · exact hg.mergeInto hne ho hn

/-! ## Union -/

/-- The slots that a union noted are live. -/
def TakenLive (s : Arena × Lookup Nat Nat) : Prop :=
  ∀ i slot, s.2 i = some slot → Holds s.1.terms slot

theorem takenLive_takeTerm {s : Arena × Lookup Nat Nat} (hg : s.1.Valid) (ht : TakenLive s)
    (e : Nat × Term) : TakenLive (takeTerm s e) := by
  intro i slot hi
  show Holds (s.1.putTerm e.2).1.terms slot
  change s.2.insert e.1 (s.1.putTerm e.2).2 i = some slot at hi
  rw [Lookup.insert_apply] at hi
  split at hi
  · rw [← Option.some.inj hi]
    exact putTerm_holds hg e.2
  · exact (ht i slot hi).putTerm e.2

theorem valid_foldl_takeTerm (es : List (Nat × Term)) {s : Arena × Lookup Nat Nat}
    (hg : s.1.Valid) (ht : TakenLive s) :
    (es.foldl takeTerm s).1.Valid ∧ TakenLive (es.foldl takeTerm s) := by
  induction es generalizing s with
  | nil => exact ⟨hg, ht⟩
  | cons e es ih => exact ih (hg.putTerm e.2) (takenLive_takeTerm hg ht e)

theorem takeLink_terms (taken : Lookup Nat Nat) (g : Arena) (k : Link) :
    (takeLink taken g k).terms = g.terms := by
  unfold takeLink
  split
  · exact putLink_terms _ _
  · rfl

theorem Valid.takeLink (hg : g.Valid) {taken : Lookup Nat Nat} (ht : TakenLive (g, taken))
    (k : Link) : (takeLink taken g k).Valid := by
  unfold Arena.takeLink
  split
  · next source target hs ht' => exact hg.putLink (ht _ _ hs) (ht _ _ ht')
  · exact hg

theorem Valid.foldl_takeLink (hg : g.Valid) {taken : Lookup Nat Nat} (ht : TakenLive (g, taken))
    (ks : List Link) : (ks.foldl (Arena.takeLink taken) g).Valid := by
  induction ks generalizing g with
  | nil => exact hg
  | cons k ks ih =>
    refine ih (hg.takeLink ht k) fun i slot hi => ?_
    rw [takeLink_terms]
    exact ht i slot hi

theorem Valid.compose (hg : g.Valid) (other : Arena) : (g.compose other).Valid := by
  have h := valid_foldl_takeTerm other.terms.entries (s := (g, .empty)) hg nofun
  exact h.1.foldl_takeLink h.2 _

/-! ## Tables -/

theorem Valid.setTypes (hg : g.Valid) (members : List Nat) (root : String) :
    (g.setTypes members root).Valid := by
  refine hg.mapTerms fun i t _ => ?_
  split <;> rfl

theorem Valid.foldlM_typeHierarchy {hs : List (List Nat)} {typed : Arena} (ht : typed.Valid)
    (hr : hs.foldlM g.typeHierarchy typed = .ok h) : h.Valid := by
  induction hs generalizing typed with
  | nil =>
    rw [List.foldlM_nil] at hr
    exact Except.ok.inj hr ▸ ht
  | cons members hs ih =>
    rw [List.foldlM_cons] at hr
    cases hm : g.typeHierarchy typed members with
    | error e =>
      rw [hm] at hr
      cases hr
    | ok next =>
      rw [hm] at hr
      refine ih ?_ hr
      unfold typeHierarchy at hm
      split at hm
      · exact Except.ok.inj hm ▸ ht.setTypes _ _
      · cases hm

theorem Valid.deriveTypes (hg : g.Valid) (hr : g.deriveTypes = .ok h) : h.Valid :=
  hg.foldlM_typeHierarchy hr

theorem Valid.foldl_relate (hg : g.Valid) (as : List Arc) : (as.foldl Arena.relate g).Valid := by
  induction as generalizing g with
  | nil => exact hg
  | cons a as ih => exact ih (hg.relate a)

theorem valid_ofRows {rows : List Row} (hr : ofRows rows = .ok h) : h.Valid :=
  (valid_empty.foldl_relate _).deriveTypes hr

end Ontogram.Arena
