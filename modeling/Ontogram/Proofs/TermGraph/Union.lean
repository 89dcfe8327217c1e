import Mathlib.Data.List.Nodup
import Ontogram.Proofs.TermGraph.Lookup

/-!
# A union is right-biased

What both arenas have is as in the one that was added, and all else is as it was. Each slot of the
added arena gets the slot of its label, and no two get the same, so each of its links lands on the
pair of its own labels. An arena that has all of another already is left as it is by their union,
slot by slot.

* `Valid.term?_compose`, `Valid.relation?_compose` — what a union finds.
* `Valid.compose_eq_self` — a union that adds nothing.
* `TermGraph.covers_compose` — a union relates what was related in the graph that was added.
* `TermGraph.compose_is_right_biased` — all of it.
-/

namespace Ontogram.Arena

variable {g h other : Arena} {label a b : String} {s : Arena × Lookup Nat Nat}

/-! ## Terms -/

/-- A slot of the other arena got the slot of its label. -/
def TakenByLabel (other : Arena) (s : Arena × Lookup Nat Nat) : Prop :=
  ∀ i slot, s.2 i = some slot →
    ∃ t, other.terms.get? i = some t ∧ s.1.index t.label = some slot

theorem index_putTerm (g : Arena) (t : Term) :
    (g.putTerm t).1.index t.label = some (g.putTerm t).2 := by
  unfold putTerm
  split
  · next hs => exact hs
  · exact if_pos rfl

theorem TakenByLabel.takeTerm (h : TakenByLabel other s) {e : Nat × Term}
    (he : other.terms.get? e.1 = some e.2) : TakenByLabel other (takeTerm s e) := by
  intro i slot hi
  change s.2.insert e.1 (s.1.putTerm e.2).2 i = some slot at hi
  rw [Lookup.insert_apply] at hi
  split at hi
  · next hie =>
    cases hi
    exact ⟨e.2, hie ▸ he, index_putTerm s.1 e.2⟩
  · obtain ⟨t, ht, hs⟩ := h i slot hi
    exact ⟨t, ht, (grows_putTerm s.1 e.2).index _ _ hs⟩

theorem TakenByLabel.foldl_takeTerm (h : TakenByLabel other s) {es : List (Nat × Term)}
    (hes : ∀ e ∈ es, other.terms.get? e.1 = some e.2) :
    TakenByLabel other (es.foldl Arena.takeTerm s) := by
  induction es generalizing s with
  | nil => exact h
  | cons e es ih =>
    exact ih (h.takeTerm (hes e List.mem_cons_self)) fun f hf => hes f (List.mem_cons_of_mem e hf)

/-- Every slot that is taken over gets a slot, and none loses its own. -/
theorem isSome_foldl_takeTerm {i : Nat} (es : List (Nat × Term))
    (hi : (s.2 i).isSome ∨ i ∈ es.map Prod.fst) : ((es.foldl takeTerm s).2 i).isSome := by
  induction es generalizing s with
  | nil => exact hi.resolve_right List.not_mem_nil
  | cons e es ih =>
    refine ih ?_
    have hins : (takeTerm s e).2 i = if i = e.1 then some (s.1.putTerm e.2).2 else s.2 i := rfl
    rw [hins]
    rcases hi with hi | hi
    · split
      · exact Or.inl rfl
      · exact Or.inl hi
    · rcases List.mem_cons.1 hi with rfl | hi
      · exact Or.inl (by rw [if_pos rfl]; rfl)
      · exact Or.inr hi

theorem takenByLabel_foldl_takeTerm (g other : Arena) :
    TakenByLabel other (other.terms.entries.foldl takeTerm (g, .empty)) := by
  have hstart : TakenByLabel other (g, .empty) := by
    intro i slot hi
    cases hi
  exact hstart.foldl_takeTerm fun _ he => Slots.mem_entries.1 he

/-- Every slot of the other arena gets the slot of its label. -/
theorem exists_taken (g other : Arena) {i : Nat} {t : Term} (ht : other.terms.get? i = some t) :
    ∃ slot, (other.terms.entries.foldl takeTerm (g, .empty)).2 i = some slot ∧
      (other.terms.entries.foldl takeTerm (g, .empty)).1.index t.label = some slot := by
  have hsome := isSome_foldl_takeTerm (s := (g, .empty)) other.terms.entries
    (Or.inr (List.mem_map_of_mem (Slots.mem_entries.2 ht)))
  obtain ⟨slot, hslot⟩ := Option.isSome_iff_exists.1 hsome
  obtain ⟨u, hu, hindex⟩ := takenByLabel_foldl_takeTerm g other i slot hslot
  obtain rfl : t = u := Option.some.inj (ht.symm.trans hu)
  exact ⟨slot, hslot, hindex⟩

/-- What a run of terms leaves at a label that they agree on. -/
theorem term?_foldl_takeTerm (hs : s.1.Valid) {es : List (Nat × Term)} {o : Option Term}
    (ho : ∀ u, ((∃ i, (i, u) ∈ es) ∧ u.label = label) ↔ o = some u) :
    (es.foldl takeTerm s).1.term? label = o.or (s.1.term? label) := by
  refine foldl_overwrites (I := fun s : Arena × Lookup Nat Nat => s.1.Valid)
    (f := fun s => s.1.term? label) (p := fun e => if e.2.label = label then some e.2 else none)
    (fun s e hs => hs.putTerm e.2) (fun s e hs => ?_) (fun u => ?_) hs
  · refine (hs.term?_putTerm e.2).trans ?_
    split <;> rfl
  · rw [← ho u]
    constructor
    · rintro ⟨e, he, hu⟩
      split at hu
      · next hl => exact Option.some.inj hu ▸ ⟨⟨e.1, he⟩, hl⟩
      · cases hu
    · rintro ⟨⟨i, hi⟩, hl⟩
      exact ⟨_, hi, if_pos hl⟩

theorem takeLink_index (taken : Lookup Nat Nat) (g : Arena) (k : Link) :
    (takeLink taken g k).index = g.index := by
  unfold takeLink
  split
  · exact putLink_index _ _
  · rfl

theorem foldl_takeLink_terms_index (taken : Lookup Nat Nat) (ks : List Link) (g : Arena) :
    (ks.foldl (takeLink taken) g).terms = g.terms ∧
      (ks.foldl (takeLink taken) g).index = g.index := by
  induction ks generalizing g with
  | nil => exact ⟨rfl, rfl⟩
  | cons k ks ih =>
    obtain ⟨ht, hi⟩ := ih (takeLink taken g k)
    exact ⟨ht.trans (takeLink_terms _ _ _), hi.trans (takeLink_index _ _ _)⟩

/-- An arena once the terms of another were taken over, and the slots that they got. -/
def takenOver (g other : Arena) : Arena × Lookup Nat Nat :=
  other.terms.entries.foldl takeTerm (g, .empty)

theorem term?_compose_eq (g other : Arena) (label : String) :
    (g.compose other).term? label = (takenOver g other).1.term? label := by
  obtain ⟨hterms, hindex⟩ := foldl_takeLink_terms_index (takenOver g other).2
    other.links.toList (takenOver g other).1
  show (other.links.toList.foldl (takeLink (takenOver g other).2) (takenOver g other).1).term? _ = _
  rw [term?, hterms, hindex]
  rfl

/-- **A union finds the term of the arena that was added**, and else the one that was there. -/
theorem Valid.term?_compose (hg : g.Valid) (ho : other.Valid) (label : String) :
    (g.compose other).term? label = (other.term? label).or (g.term? label) := by
  rw [term?_compose_eq, takenOver]
  refine term?_foldl_takeTerm hg fun u => ?_
  rw [ho.term?_eq_some, and_comm]
  simp only [Slots.mem_entries]

theorem Valid.contains_compose (hg : g.Valid) (ho : other.Valid) (label : String) :
    (g.compose other).contains label = (other.contains label || g.contains label) := by
  rw [← (hg.compose other).isSome_term?, hg.term?_compose ho, Option.isSome_or, ho.isSome_term?,
    hg.isSome_term?]

/-! ## Relations -/

theorem foldl_takeTerm_links (es : List (Nat × Term)) (s : Arena × Lookup Nat Nat) :
    (es.foldl takeTerm s).1.links = s.1.links := by
  induction es generalizing s with
  | nil => rfl
  | cons e es ih =>
    refine (ih (takeTerm s e)).trans ?_
    show (s.1.putTerm e.2).1.links = s.1.links
    unfold putTerm
    split <;> rfl

/-- A link between the slots that its ends got. -/
def moved? (taken : Lookup Nat Nat) (k : Link) : Option Link :=
  (taken k.source).bind fun source => (taken k.target).map fun target =>
    ⟨source, target, k.relation⟩

theorem foldl_takeLink_eq (taken : Lookup Nat Nat) (ks : List Link) (g : Arena) :
    ks.foldl (takeLink taken) g = (ks.filterMap (moved? taken)).foldl putLink g := by
  rw [List.foldl_filterMap]
  congr 1
  funext g k
  unfold takeLink moved?
  cases taken k.source <;> cases taken k.target <;> rfl

/-- A union puts the links of the other arena between the slots that their ends got. -/
theorem compose_eq_foldl_putLink (g other : Arena) : g.compose other =
    (other.links.toList.filterMap (moved? (takenOver g other).2)).foldl putLink
      (takenOver g other).1 :=
  foldl_takeLink_eq _ _ _

/-- **The links that land on a pair are those of its labels.** -/
theorem Valid.mem_moved_iff (hg : g.Valid) (ho : other.Valid) {s t : Nat} {r : Relation}
    (hs : (takenOver g other).1.index a = some s) (ht : (takenOver g other).1.index b = some t) :
    ⟨s, t, r⟩ ∈ other.links.toList.filterMap (moved? (takenOver g other).2) ↔
      other.relation? a b = some r := by
  have hu : (takenOver g other).1.Valid := (valid_foldl_takeTerm _ (s := (g, .empty)) hg nofun).1
  have htaken : TakenByLabel other (takenOver g other) := takenByLabel_foldl_takeTerm g other
  have hlabel : ∀ {i slot label}, (takenOver g other).2 i = some slot →
      (takenOver g other).1.index label = some slot → other.labelAt i = label := by
    intro i slot label hi hl
    obtain ⟨u, hu', hindex⟩ := htaken i slot hi
    rw [labelAt_eq hu', ← hu.labelAt_of_index hindex, hu.labelAt_of_index hl]
  have hslot : ∀ {i slot}, Holds other.terms i →
      (takenOver g other).1.index (other.labelAt i) = some slot →
      (takenOver g other).2 i = some slot := by
    rintro i slot ⟨u, hu'⟩ hl
    obtain ⟨slot', hi, hindex⟩ : ∃ slot, (takenOver g other).2 i = some slot ∧
      (takenOver g other).1.index u.label = some slot := exists_taken g other hu'
    rw [labelAt_eq hu', hindex] at hl
    rw [hi, hl]
  rw [ho.relation?_eq_some, mem_arcList, List.mem_filterMap]
  simp only [moved?, Option.bind_eq_some_iff, Option.map_eq_some_iff, Link.mk.injEq]
  constructor
  · rintro ⟨k, hk, source, hsource, target, htarget, rfl, rfl, rfl⟩
    obtain ⟨i, hi⟩ := Slots.mem_toList.1 hk
    exact ⟨i, k, hi, by rw [arcOf, hlabel hsource hs, hlabel htarget ht]⟩
  · rintro ⟨i, k, hk, harc⟩
    obtain ⟨hsource, htarget⟩ := ho.ends i k hk
    cases harc
    exact ⟨k, Slots.mem_toList.2 ⟨i, hk⟩, s, hslot hsource hs, t, hslot htarget ht, rfl, rfl, rfl⟩

/-- A link that lands somewhere is that of a related pair. -/
theorem Valid.exists_of_mem_moved (hg : g.Valid) (ho : other.Valid) {k : Link}
    (hk : k ∈ other.links.toList.filterMap (moved? (takenOver g other).2)) :
    ∃ a b, (takenOver g other).1.index a = some k.source ∧
      (takenOver g other).1.index b = some k.target ∧ other.relation? a b = some k.relation := by
  have htaken : TakenByLabel other (takenOver g other) := takenByLabel_foldl_takeTerm g other
  obtain ⟨l, -, hl⟩ := List.mem_filterMap.1 hk
  obtain ⟨source, hsource, hl⟩ := Option.bind_eq_some_iff.1 hl
  obtain ⟨target, htarget, rfl⟩ := Option.map_eq_some_iff.1 hl
  obtain ⟨u, -, hs⟩ := htaken _ _ hsource
  obtain ⟨v, -, ht⟩ := htaken _ _ htarget
  exact ⟨u.label, v.label, hs, ht, (hg.mem_moved_iff ho hs ht).1 hk⟩

/-- **A union finds the relation of the arena that was added**, and else the one that was there. -/
theorem Valid.relation?_compose (hg : g.Valid) (ho : other.Valid) (a b : String) :
    (g.compose other).relation? a b = (other.relation? a b).or (g.relation? a b) := by
  have hu : (takenOver g other).1.Valid := (valid_foldl_takeTerm _ (s := (g, .empty)) hg nofun).1
  have hbase : (takenOver g other).1.relation? a b = g.relation? a b :=
    Grows.relation?_eq (grows_foldl_takeTerm _ (g, .empty)) hg hu (foldl_takeTerm_links _ _)
  have hindex : (g.compose other).index = (takenOver g other).1.index := by
    rw [compose_eq_foldl_putLink, foldl_putLink_index]
  have habsent : ∀ {label}, (takenOver g other).1.index label = none →
      other.contains label = false := by
    intro label hl
    have hc := hg.contains_compose ho label
    rw [contains, hindex, hl] at hc
    exact (Bool.or_eq_false_iff.1 hc.symm).1
  rw [← hbase, relation?_eq_bind (g.compose other), relation?_eq_bind (takenOver g other).1, hindex]
  cases hs : (takenOver g other).1.index a with
  | none => rw [relation?_eq_none (Or.inl (habsent hs))]; rfl
  | some s =>
    cases ht : (takenOver g other).1.index b with
    | none => rw [relation?_eq_none (Or.inr (habsent ht))]; rfl
    | some t =>
      simp only [Option.bind_some]
      rw [compose_eq_foldl_putLink]
      exact linked?_foldl_putLink hu.pairs fun r => hg.mem_moved_iff ho hs ht

theorem Valid.covers_compose (hg : g.Valid) (ho : other.Valid) :
    (g.compose other).Covers other := by
  intro parent child hr
  rw [hg.relation?_compose ho, Option.isSome_or, hr, Bool.true_or]

/-! ## What is listed -/

/-- **A union lists the terms of the arena that was added and the others that were there.** -/
theorem Valid.labels_compose_perm (hg : g.Valid) (ho : other.Valid) :
    (g.compose other).labels.Perm
      (other.labels ++ g.labels.filter fun label => !other.contains label) := by
  have hnd : (other.labels ++ g.labels.filter fun label => !other.contains label).Nodup := by
    refine ho.labels_nodup.append (hg.labels_nodup.filter _) fun label hl hl' => ?_
    have hnew := (List.mem_filter.1 hl').2
    rw [ho.mem_labels.1 hl] at hnew
    cases hnew
  refine (List.perm_ext_iff_of_nodup (hg.compose other).labels_nodup hnd).2 fun label => ?_
  rw [(hg.compose other).mem_labels, hg.contains_compose ho, List.mem_append, List.mem_filter,
    ho.mem_labels, hg.mem_labels]
  cases other.contains label <;> simp

/-- Terms that both arenas have are counted once. -/
theorem Valid.size_compose (hg : g.Valid) (ho : other.Valid) :
    (g.compose other).size + g.labels.countP other.contains = g.size + other.size := by
  have hnew := (hg.labels_compose_perm ho).length_eq
  have hsplit := g.labels.length_eq_countP_add_countP other.contains
  rw [List.length_append, ← List.countP_eq_length_filter] at hnew
  simp only [length_labels, Bool.not_eq_true, Bool.decide_eq_false] at hnew hsplit
  omega

/-! ## A union that adds nothing -/

/-- Putting a term that is there changes nothing. -/
theorem putTerm_eq_self {u : Term} (hu : g.term? u.label = some u) :
    (g.putTerm u).1 = g := by
  obtain ⟨slot, hs, hslot⟩ := Option.bind_eq_some_iff.1 hu
  unfold Arena.putTerm
  rw [hs]
  refine Arena.ext ?_ rfl rfl
  show (g.terms.map fun i v => if i = slot then u else v) = g.terms
  refine (Slots.map_congr fun i v hv => ?_).trans g.terms.map_id
  split
  · next hi =>
    rw [hi, hslot] at hv
    exact Option.some.inj hv
  · rfl

/-- Putting a link that is there changes nothing. -/
theorem putLink_eq_self (hp : OncePerPair g.links) {k : Link}
    (hk : g.linked? k.source k.target = some k.relation) : g.putLink k = g := by
  obtain ⟨i, hi⟩ := (linked?_eq_some hp).1 hk
  unfold putLink
  rw [if_pos (link?_isSome.2 ⟨i, k, hi, rfl, rfl⟩)]
  refine Arena.ext rfl ?_ rfl
  show (g.links.map fun _ l => if l.joins k.source k.target then k else l) = g.links
  refine (Slots.map_congr fun j l hl => ?_).trans g.links.map_id
  split
  · next hjoins =>
    simp only [Link.joins, Bool.and_eq_true, beq_iff_eq] at hjoins
    obtain rfl := hp _ _ _ _ hl hi hjoins.1 hjoins.2
    rw [hl] at hi
    exact (Option.some.inj hi).symm
  · rfl

/-- **A union with an arena whose terms and relations are there changes nothing**, slot by slot. -/
theorem Valid.compose_eq_self (hg : g.Valid) (ho : other.Valid)
    (hterm : ∀ label u, other.term? label = some u → g.term? label = some u)
    (hrelation : ∀ a b r, other.relation? a b = some r → g.relation? a b = some r) :
    g.compose other = g := by
  have hterms : (takenOver g other).1 = g := by
    refine List.foldlRecOn (motive := fun s : Arena × Lookup Nat Nat => s.1 = g) _ _ rfl ?_
    rintro s rfl e he
    refine putTerm_eq_self (hterm _ _ ?_)
    exact ho.term?_eq_some.2 ⟨rfl, e.1, Slots.mem_entries.1 he⟩
  rw [compose_eq_foldl_putLink, hterms]
  refine List.foldlRecOn (motive := fun h => h = g) _ _ rfl ?_
  rintro _ rfl k hk
  obtain ⟨a, b, hs, ht, hr⟩ := hg.exists_of_mem_moved ho hk
  have hrelation := hrelation a b _ hr
  rw [hterms] at hs ht
  rw [relation?_eq_bind, hs, ht] at hrelation
  exact putLink_eq_self hg.pairs hrelation

end Ontogram.Arena

namespace Ontogram.TermGraph

/-- **A union covers what was added.** -/
theorem covers_compose (g other : TermGraph) : (g.compose other).Covers other.toArena :=
  g.valid.covers_compose other.valid

/-- Says that a graph is the union of two, and that what both have is as in the second. -/
structure IsRightBiasedUnion (g other u : TermGraph) : Prop where
  term : ∀ label, u.term? label = (other.term? label).or (g.term? label)
  relation : ∀ parent child,
    u.relation? parent child = (other.relation? parent child).or (g.relation? parent child)
  contains : ∀ label, u.contains label = (other.contains label || g.contains label)
  listedTerm : ∀ t, t ∈ u.termList ↔
    t ∈ other.termList ∨ t ∈ g.termList ∧ other.contains t.label = false
  listedArc : ∀ a, a ∈ u.arcList ↔
    a ∈ other.arcList ∨ a ∈ g.arcList ∧ other.relation? a.parent a.child = none
  /-- Labels that both graphs have are counted once. -/
  size : u.size + g.labels.countP other.contains = g.size + other.size

theorem isRightBiasedUnion_compose (g other : TermGraph) :
    IsRightBiasedUnion g other (g.compose other) where
  term := g.valid.term?_compose other.valid
  relation := g.valid.relation?_compose other.valid
  contains := g.valid.contains_compose other.valid
  listedTerm := by
    intro t
    rw [(g.compose other).valid.mem_termList, other.valid.mem_termList, g.valid.mem_termList,
      ← other.valid.isSome_term?, Option.isSome_eq_false_iff, Option.isNone_iff_eq_none]
    refine (Eq.congr_left (g.valid.term?_compose other.valid t.label)).trans ?_
    rw [Option.or_eq_some_iff, and_comm]
  listedArc := by
    intro a
    rw [← (g.compose other).valid.relation?_eq_some, ← other.valid.relation?_eq_some,
      ← g.valid.relation?_eq_some]
    refine (Eq.congr_left (g.valid.relation?_compose other.valid a.parent a.child)).trans ?_
    rw [Option.or_eq_some_iff, and_comm]
  size := g.valid.size_compose other.valid

/--
**A union is right-biased.**

Each label stands for the term of the graph that was added, if that has one, and else for the one it
stood for; so does each pair for its relation. There is nothing else, and nothing of both graphs is
missing. Adding the same graph once more leaves everything as it is, slots included, and so does
adding a graph to itself.
-/
theorem compose_is_right_biased (g other : TermGraph) :
    IsRightBiasedUnion g other (g.compose other) ∧
      (g.compose other).compose other = g.compose other ∧ g.compose g = g := by
  have hunion := isRightBiasedUnion_compose g other
  refine ⟨hunion, toArena_inj ?_, toArena_inj ?_⟩
  · refine (g.compose other).valid.compose_eq_self other.valid (fun label u hu => ?_)
      fun a b r hr => ?_
    · rw [hunion.term, hu, Option.some_or]
    · rw [hunion.relation, hr, Option.some_or]
  · exact g.valid.compose_eq_self g.valid (fun _ _ hu => hu) fun _ _ _ hr => hr

end Ontogram.TermGraph
