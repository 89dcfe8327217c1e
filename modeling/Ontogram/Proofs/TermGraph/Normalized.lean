import Ontogram.Proofs.TermGraph.Hierarchies

/-!
# Loading a table that was written

A loaded graph is written as the table of its pairs in the order of their first rows, each with the
relation of its last row. Loading that table gives the same graph, slot by slot: a row that
overwrites a pair could as well have stood in the place of the first row of the pair.

* `relate_relate`, `Valid.relate_comm` — what overwriting a pair does to a row before it.
* `relate_ofTable` — a row that overwrites a pair, moved to the place of the first row of the pair.
* `ofTable_normalized` — the arena of a table without its overwritten rows.
* `TermGraph.ofRows_normalizes` — what is written, and that it is loaded as it was.
-/

namespace Ontogram

/-! ## Slots -/

/-- A value is rewritten before or after it is inserted. -/
theorem Slots.map_insert {α : Type} (s : Slots α) (f : Nat → α → α) (a : α) :
    (s.insert a).map f = (s.map f).insert (f s.next a) :=
  Slots.ext rfl rfl rfl

namespace Arena

variable {g : Arena} {k l : Link} {a b : Arc} {s t : Nat}

/-! ## Overwriting a link -/

/-- Puts a link in the place of one that joins the same slots. -/
def overwriting (k : Link) (_ : Nat) (l : Link) : Link :=
  if l.joins k.source k.target then k else l

theorem joins_iff : k.joins s t = true ↔ k.source = s ∧ k.target = t := by
  simp [Link.joins]

theorem overwriting_of_joins {m : Link} (h : m.joins k.source k.target = true) (i : Nat) :
    overwriting k i m = k :=
  if_pos h

theorem overwriting_of_not_joins {m : Link} (h : ¬ m.joins k.source k.target = true) (i : Nat) :
    overwriting k i m = m :=
  if_neg h

/-- Of two links that join the same slots, the later one stays. -/
theorem overwriting_overwriting (hs : k.source = l.source) (ht : k.target = l.target) (i : Nat)
    (m : Link) : overwriting l i (overwriting k i m) = overwriting l i m := by
  by_cases hm : m.joins l.source l.target = true
  · have hmk : m.joins k.source k.target = true := by rwa [hs, ht]
    rw [overwriting_of_joins hmk, overwriting_of_joins hm,
      overwriting_of_joins (joins_iff.2 ⟨hs, ht⟩)]
  · have hmk : ¬ m.joins k.source k.target = true := by rwa [hs, ht]
    rw [overwriting_of_not_joins hmk]

/-- Links that join different slots are put in the places of different links. -/
theorem overwriting_comm (hne : ¬ (k.source = l.source ∧ k.target = l.target)) (i : Nat)
    (m : Link) :
    overwriting k i (overwriting l i m) = overwriting l i (overwriting k i m) := by
  have hkl := overwriting_of_not_joins (mt joins_iff.1 hne) i
  have hlk : overwriting k i l = l :=
    overwriting_of_not_joins (fun h => hne ((joins_iff.1 h).imp Eq.symm Eq.symm)) i
  by_cases hml : m.joins l.source l.target = true
  · have hmk : ¬ m.joins k.source k.target = true := fun h =>
      hne ⟨(joins_iff.1 h).1.symm.trans (joins_iff.1 hml).1,
        (joins_iff.1 h).2.symm.trans (joins_iff.1 hml).2⟩
    rw [overwriting_of_joins hml, overwriting_of_not_joins hmk, overwriting_of_joins hml, hlk]
  · rw [overwriting_of_not_joins hml]
    by_cases hmk : m.joins k.source k.target = true
    · rw [overwriting_of_joins hmk, hkl]
    · rw [overwriting_of_not_joins hmk, overwriting_of_not_joins hml]

theorem putLink_of_isSome (hk : (g.link? k.source k.target).isSome) :
    g.putLink k = { g with links := g.links.map (overwriting k) } :=
  if_pos hk

theorem putLink_of_not_isSome (hk : ¬ (g.link? k.source k.target).isSome) :
    g.putLink k = { g with links := g.links.insert k } :=
  if_neg hk

theorem map_overwriting_of_not_isSome (hk : ¬ (g.link? k.source k.target).isSome) :
    g.links.map (overwriting k) = g.links := by
  refine (Slots.map_congr fun i m hm => ?_).trans g.links.map_id
  exact overwriting_of_not_joins (fun hj => hk (link?_isSome.2 ⟨i, m, hm, joins_iff.1 hj⟩)) i

/-- **The last link that joins two slots stays.** -/
theorem putLink_putLink (hs : k.source = l.source) (ht : k.target = l.target) :
    (g.putLink k).putLink l = g.putLink l := by
  have hjoined : ((g.putLink k).link? l.source l.target).isSome :=
    (link?_putLink_isSome k).2 (Or.inr ⟨hs, ht⟩)
  rw [putLink_of_isSome hjoined]
  by_cases hl : (g.link? l.source l.target).isSome
  · have hk : (g.link? k.source k.target).isSome := by rwa [hs, ht]
    rw [putLink_of_isSome hk, putLink_of_isSome hl]
    refine Arena.ext rfl ?_ rfl
    show (g.links.map (overwriting k)).map (overwriting l) = g.links.map (overwriting l)
    rw [Slots.map_map]
    exact Slots.map_congr fun i m _ => overwriting_overwriting hs ht i m
  · have hk : ¬ (g.link? k.source k.target).isSome := by rwa [hs, ht]
    rw [putLink_of_not_isSome hk, putLink_of_not_isSome hl]
    refine Arena.ext rfl ?_ rfl
    show (g.links.insert k).map (overwriting l) = g.links.insert l
    rw [Slots.map_insert, overwriting_of_joins (joins_iff.2 ⟨hs, ht⟩),
      map_overwriting_of_not_isSome hl]

/-- **A link of other slots may be put before or after one that is overwritten.** -/
theorem putLink_comm (hne : ¬ (k.source = l.source ∧ k.target = l.target))
    (hk : (g.link? k.source k.target).isSome) :
    (g.putLink l).putLink k = (g.putLink k).putLink l := by
  have hjoined : ((g.putLink l).link? k.source k.target).isSome :=
    (link?_putLink_isSome l).2 (Or.inl hk)
  have hiff : ((g.putLink k).link? l.source l.target).isSome ↔
      (g.link? l.source l.target).isSome :=
    (link?_putLink_isSome k).trans (or_iff_left hne)
  rw [putLink_of_isSome hjoined]
  by_cases hl : (g.link? l.source l.target).isSome
  · rw [putLink_of_isSome (hiff.2 hl), putLink_of_isSome hl, putLink_of_isSome hk]
    refine Arena.ext rfl ?_ rfl
    show (g.links.map (overwriting l)).map (overwriting k) =
      (g.links.map (overwriting k)).map (overwriting l)
    rw [Slots.map_map, Slots.map_map]
    exact Slots.map_congr fun i m _ => overwriting_comm hne i m
  · have hlk : ¬ l.joins k.source k.target = true := fun h =>
      hne ((joins_iff.1 h).imp Eq.symm Eq.symm)
    rw [putLink_of_not_isSome (mt hiff.1 hl), putLink_of_not_isSome hl, putLink_of_isSome hk]
    refine Arena.ext rfl ?_ rfl
    show (g.links.insert l).map (overwriting k) = (g.links.map (overwriting k)).insert l
    rw [Slots.map_insert, overwriting_of_not_joins hlk]

/-! ## Overwriting an arc -/

theorem ensureSlot_putLink (g : Arena) (k : Link) (label : String) :
    (g.putLink k).ensureSlot label =
      ((g.ensureSlot label).1.putLink k, (g.ensureSlot label).2) := by
  unfold ensureSlot
  rw [putLink_index, putLink_terms]
  cases g.index label with
  | some slot => rfl
  | none =>
    have hadd : (g.putLink k).addTerm (.ofLabel label) =
        (g.addTerm (.ofLabel label)).putLink k := by
      unfold addTerm putLink link?
      split <;> rfl
    rw [hadd]

/-- Terms are added before or after a link is put. -/
theorem ensureEnds_putLink (g : Arena) (k : Link) (a : Arc) :
    (g.putLink k).ensureEnds a = (g.ensureEnds a).putLink k := by
  have hensure : ∀ (g : Arena) label, (g.putLink k).ensure label = (g.ensure label).putLink k :=
    fun g label => congrArg Prod.fst (ensureSlot_putLink g k label)
  rw [ensureEnds, hensure, hensure, ensureEnds]

theorem ensureEnds_congr (hends : a.ends = b.ends) (g : Arena) :
    g.ensureEnds a = g.ensureEnds b := by
  obtain ⟨hp, hc⟩ := Prod.mk.inj hends
  rw [ensureEnds, ensureEnds, hp, hc]

theorem ensureSlot_of_index {label : String} (hs : g.index label = some s) :
    g.ensureSlot label = (g, s) := by
  unfold ensureSlot
  rw [hs]

/-- To relate two terms of an arena is to put a link between their slots. -/
theorem relate_eq_putLink (hs : g.index a.parent = some s) (ht : g.index a.child = some t) :
    g.relate a = g.putLink ⟨s, t, a.relation⟩ := by
  simp only [relate, ensureSlot_of_index hs, ensureSlot_of_index ht]

/-- **The last arc of a pair stays.** -/
theorem relate_relate (hends : a.ends = b.ends) (g : Arena) :
    (g.relate a).relate b = g.relate b := by
  obtain ⟨hp, hc⟩ := Prod.mk.inj hends
  obtain ⟨s, t, hs, ht, ha⟩ := exists_relate_eq g a
  obtain ⟨s', t', hs', ht', hb⟩ := exists_relate_eq g b
  rw [← ensureEnds_congr hends] at hs' ht' hb
  rw [hp] at hs
  rw [hc] at ht
  obtain rfl := Option.some.inj (hs.symm.trans hs')
  obtain rfl := Option.some.inj (ht.symm.trans ht')
  have hrelate : (g.relate a).relate b = (g.relate a).putLink ⟨s, t, b.relation⟩ := by
    refine relate_eq_putLink ?_ ?_
    · rwa [ha, putLink_index]
    · rwa [ha, putLink_index]
  rw [hrelate, ha, hb]
  exact putLink_putLink rfl rfl

/-- **An arc of another pair may be related before or after one that is overwritten.** -/
theorem Valid.relate_comm (hg : g.Valid) (hb : (g.relation? b.parent b.child).isSome)
    (hne : a.ends ≠ b.ends) : (g.relate a).relate b = (g.relate b).relate a := by
  obtain ⟨s, t, hs, ht, hlinked⟩ := relation?_isSome.1 hb
  obtain ⟨s', t', hs', ht', ha⟩ := exists_relate_eq g a
  have hh := hg.ensureEnds a
  have hgrows := grows_ensureEnds g a
  have hs₁ := hgrows.index _ _ hs
  have ht₁ := hgrows.index _ _ ht
  -- Both sides put the two links into the arena that has all four terms.
  have hleft : (g.relate a).relate b =
      ((g.ensureEnds a).putLink ⟨s', t', a.relation⟩).putLink ⟨s, t, b.relation⟩ := by
    rw [ha]
    refine relate_eq_putLink ?_ ?_
    · rwa [putLink_index]
    · rwa [putLink_index]
  have hright : (g.relate b).relate a =
      ((g.ensureEnds a).putLink ⟨s, t, b.relation⟩).putLink ⟨s', t', a.relation⟩ := by
    obtain ⟨s₂, t₂, hs₂, ht₂, hba⟩ := exists_relate_eq (g.putLink ⟨s, t, b.relation⟩) a
    rw [ensureEnds_putLink, putLink_index] at hs₂ ht₂
    obtain rfl := Option.some.inj (hs'.symm.trans hs₂)
    obtain rfl := Option.some.inj (ht'.symm.trans ht₂)
    rw [relate_eq_putLink hs ht, hba, ensureEnds_putLink]
  rw [hleft, hright]
  refine putLink_comm ?_ (hgrows.links s t hlinked)
  rintro ⟨rfl, rfl⟩
  refine hne (Prod.ext ?_ ?_)
  · exact (hh.labelAt_of_index hs').symm.trans (hh.labelAt_of_index hs₁)
  · exact (hh.labelAt_of_index ht').symm.trans (hh.labelAt_of_index ht₁)

end Arena

/-! ## Tables -/

namespace Table

variable {rows : List Row} {r : Row} {pair : String × String}

/-- A table without its overwritten rows: its pairs in the order of their first rows, each with the
relation of its last row. -/
def normalized (rows : List Row) : List Row :=
  (pairs rows).filterMap fun pair => (relation? rows pair).map fun k =>
    ⟨pair.1, pair.2, k.rel, k.isRank⟩

/-- A table in which a row stands in the place of those of its pair. -/
def overwrite (r : Row) (rows : List Row) : List Row :=
  rows.map fun x => if x.ends = r.ends then r else x

theorem isSome_relation? (hpair : pair ∈ pairs rows) : (relation? rows pair).isSome := by
  obtain ⟨r, hr, he⟩ := mem_pairs.1 hpair
  unfold relation?
  rw [Option.isSome_map, List.find?_isSome]
  exact ⟨r, List.mem_reverse.2 hr, beq_iff_eq.2 he⟩

/-- A row of a normalized table has the relation of the last row of its pair. -/
theorem relation?_of_mem_normalized (hr : r ∈ normalized rows) :
    relation? rows r.ends = some ⟨r.rel, r.isRank⟩ := by
  obtain ⟨pair, -, he⟩ := List.mem_filterMap.1 hr
  obtain ⟨k, hk, rfl⟩ := Option.map_eq_some_iff.1 he
  exact hk

/-- The rows of a normalized table have the pairs as their ends. -/
theorem ends_normalized (rows : List Row) : (normalized rows).map Row.ends = pairs rows := by
  rw [normalized, List.map_filterMap]
  refine (List.filterMap_congr fun pair hpair => ?_).trans List.filterMap_some
  obtain ⟨k, hk⟩ := Option.isSome_iff_exists.1 (isSome_relation? hpair)
  rw [hk]
  rfl

theorem overwrite_of_notMem (hr : r.ends ∉ pairs rows) : overwrite r rows = rows := by
  refine (List.map_congr_left fun x hx => ?_).trans (List.map_id' rows)
  exact if_neg fun he => hr (mem_pairs.2 ⟨x, hx, he⟩)

/-- A row that overwrites a pair takes the place of its row, and any other comes last. -/
theorem normalized_append_singleton (rows : List Row) (r : Row) :
    normalized (rows ++ [r]) =
      if r.ends ∈ pairs rows then overwrite r (normalized rows) else normalized rows ++ [r] := by
  have hlast : ∀ pair, relation? (rows ++ [r]) pair =
      if r.ends = pair then some ⟨r.rel, r.isRank⟩ else relation? rows pair :=
    relation?_append_singleton rows r
  rw [normalized, pairs_append_singleton]
  split
  · next hr =>
    rw [overwrite, normalized, List.map_filterMap]
    refine List.filterMap_congr fun pair hpair => ?_
    obtain ⟨k, hk⟩ := Option.isSome_iff_exists.1 (isSome_relation? hpair)
    rw [hlast, hk]
    by_cases he : r.ends = pair
    · subst he
      rw [if_pos rfl]
      exact congrArg some (if_pos rfl).symm
    · rw [if_neg he]
      exact congrArg some (if_neg (Ne.symm he)).symm
  · next hr =>
    rw [List.filterMap_append]
    congr 1
    · refine List.filterMap_congr fun pair hpair => ?_
      rw [hlast, if_neg]
      rintro rfl
      exact hr hpair
    · simp [hlast, Row.ends]

end Table

namespace Arena

open Table

variable {g : Arena} {rows : List Row} {r : Row}

/-- **A row that overwrites a pair could as well stand in the place of the first row of the
pair.** -/
theorem relate_ofTable (hr : r.ends ∈ pairs rows) :
    (ofTable rows).relate r.toArc = ofTable (overwrite r rows) := by
  induction rows using List.reverseRecOn with
  | nil => cases hr
  | append_singleton rows x ih =>
    have hsplit : overwrite r (rows ++ [x]) =
        overwrite r rows ++ [if x.ends = r.ends then r else x] := List.map_append
    rw [ofTable_append_singleton, hsplit, ofTable_append_singleton]
    by_cases hx : x.ends = r.ends
    · -- The row `x` is overwritten itself.
      have hends : x.toArc.ends = r.toArc.ends := hx
      rw [if_pos hx, relate_relate hends]
      by_cases hrows : r.ends ∈ pairs rows
      · rw [← ih hrows, relate_relate rfl]
      · rw [overwrite_of_notMem hrows]
    · -- The pair is related before the row `x`, so `r` may be related before it as well.
      have hrows : r.ends ∈ pairs rows := by
        obtain ⟨y, hy, he⟩ := mem_pairs.1 hr
        rcases List.mem_append.1 hy with hy | hy
        · exact mem_pairs.2 ⟨y, hy, he⟩
        · rw [List.mem_singleton.1 hy] at he
          exact absurd he hx
      have hrelated : ((ofTable rows).relation? r.toArc.parent r.toArc.child).isSome := by
        rw [relation?_ofTable]
        exact isSome_relation? hrows
      have hends : x.toArc.ends ≠ r.toArc.ends := hx
      rw [if_neg hx, (valid_ofTable rows).relate_comm hrelated hends, ih hrows]

/-- **A table gives the arena that it gives without its overwritten rows.** -/
theorem ofTable_normalized (rows : List Row) : ofTable (normalized rows) = ofTable rows := by
  induction rows using List.reverseRecOn with
  | nil => rfl
  | append_singleton rows r ih =>
    rw [normalized_append_singleton, ofTable_append_singleton, ← ih]
    split
    · next hr =>
      refine (relate_ofTable ?_).symm
      obtain ⟨x, hx, he⟩ := List.mem_map.1 ((ends_normalized rows).symm ▸ hr)
      exact mem_pairs.2 ⟨x, hx, he⟩
    · exact ofTable_append_singleton _ r

/-- **The arena of a table is written as the table without its overwritten rows.** -/
theorem rows_ofTable (rows : List Row) : (ofTable rows).rows = normalized rows := by
  rw [normalized, ← (ends_ofTable rows).2, List.filterMap_map, Arena.rows, ← List.filterMap_eq_map]
  refine List.filterMap_congr fun a ha => ?_
  have hr : (ofTable rows).relation? a.parent a.child = some a.relation :=
    (valid_ofTable rows).relation?_eq_some.2 ha
  rw [relation?_ofTable] at hr
  rw [Function.comp, Function.comp, Arc.ends, hr]
  rfl

end Arena

namespace TermGraph

open Table

variable {rows : List Row} {g : TermGraph}

theorem ofRows_eq_ok_iff :
    ofRows rows = .ok g ↔ (Arena.ofTable rows).deriveTypes = .ok g.toArena := by
  refine ⟨deriveTypes_of_ok, fun hr => ?_⟩
  unfold ofRows
  split
  · next h =>
    obtain rfl := Except.ok.inj (h.symm.trans hr)
    rfl
  · next h => cases h.symm.trans hr

/-- A loaded graph is written as the table without its overwritten rows. -/
theorem rows_of_ok (hr : ofRows rows = .ok g) : g.rows = normalized rows := by
  have harcs := (Arena.valid_ofTable rows).arcList_deriveTypes (deriveTypes_of_ok hr)
  rw [Arena.rows, harcs, ← Arena.rows, Arena.rows_ofTable]

/-- **A loaded graph is written as a table that has each pair once, in the order of the first rows
and with the relations of the last rows, and loading that table gives the same graph.** -/
theorem ofRows_normalizes (hr : ofRows rows = .ok g) :
    g.rows.map Row.ends = pairs rows ∧
      (∀ r ∈ g.rows, relation? rows r.ends = some ⟨r.rel, r.isRank⟩) ∧
      ofRows g.rows = .ok g := by
  rw [rows_of_ok hr]
  refine ⟨ends_normalized rows, fun r => relation?_of_mem_normalized, ?_⟩
  rwa [ofRows_eq_ok_iff, Arena.ofTable_normalized, ← ofRows_eq_ok_iff]

/-- The rank row of a pair is overwritten after a row of another pair, and keeps its place. -/
theorem ofRows_normalizes_overwritten :
    let rows : List Row := [⟨"Motor", "motor_", "is", true⟩, ⟨"Device", "motor_", "is", true⟩,
      ⟨"motor_", "speed_", "has", false⟩, ⟨"Motor", "motor_", "has", false⟩]
    ∃ g, ofRows rows = .ok g ∧
      pairs rows = [("Motor", "motor_"), ("Device", "motor_"), ("motor_", "speed_")] ∧
      g.rows.map Row.ends = pairs rows ∧
      (∀ r ∈ g.rows, relation? rows r.ends = some ⟨r.rel, r.isRank⟩) ∧
      relation? rows ("Motor", "motor_") = some ⟨"has", false⟩ ∧ ofRows g.rows = .ok g := by
  intro rows
  obtain ⟨g, hr⟩ : ∃ g, ofRows rows = .ok g := exists_ok_of_isSome (by decide +kernel)
  obtain ⟨hends, hrelations, hagain⟩ := ofRows_normalizes hr
  exact ⟨g, hr, by decide +kernel, hends, hrelations, by decide +kernel, hagain⟩

end TermGraph

end Ontogram
