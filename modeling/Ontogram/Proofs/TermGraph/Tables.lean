import Ontogram.Proofs.FirstMentions
import Ontogram.Proofs.TermGraph.Leads

/-!
# The arcs of a table

The rows of a table are related in turn, each in the slot of its pair. So the arcs are the pairs of
the rows in the order of their first rows, and the relation of each is that of its last row.

* `Table.rankPairs` — the pairs that are rank arcs once all rows are related.
* `Valid.relation?_relate`, `Valid.ends_relate` — what one row leaves.
* `relation?_ofTable`, `ends_ofTable` — what a table leaves.
-/

namespace Ontogram

/-! ## Tables -/

/-- The ends of a row. -/
def Row.ends (r : Row) : String × String :=
  (r.parent, r.child)

namespace Table

/-- The pairs that the rows of a table relate, in the order of their first rows. -/
def pairs (rows : List Row) : List (String × String) :=
  (rows.map fun r => (r.parent, r.child)).eraseDups

/-- The relation that the last row of a pair gives to it. -/
def relation? (rows : List Row) (pair : String × String) : Option Relation :=
  (rows.reverse.find? fun r => (r.parent, r.child) == pair).map fun r => ⟨r.rel, r.isRank⟩

/-- The pairs that the rows of a table relate by rank, if later rows overwrite earlier ones. -/
def rankPairs (rows : List Row) : List (String × String) :=
  (pairs rows).filter fun pair => (relation? rows pair).any Relation.isRank

theorem mem_pairs {rows : List Row} {pair : String × String} :
    pair ∈ pairs rows ↔ ∃ r ∈ rows, r.ends = pair :=
  List.mem_eraseDups.trans List.mem_map

/-- A row keeps the place of its pair, or its pair comes last if it is new. -/
theorem pairs_append_singleton (rows : List Row) (r : Row) :
    pairs (rows ++ [r]) = if r.ends ∈ pairs rows then pairs rows else pairs rows ++ [r.ends] := by
  have hmem : r.ends ∈ pairs rows ↔ r.ends ∈ rows.map Row.ends := List.mem_eraseDups
  rw [pairs, List.map_append, List.map_singleton]
  exact (eraseDups_append_singleton _ _).trans (if_congr hmem.symm rfl rfl)

theorem relation?_append_singleton (rows : List Row) (r : Row) (pair : String × String) :
    relation? (rows ++ [r]) pair =
      if (r.parent, r.child) = pair then some ⟨r.rel, r.isRank⟩ else relation? rows pair := by
  unfold relation?
  rw [List.reverse_append, List.reverse_singleton, List.singleton_append]
  by_cases hr : (r.parent, r.child) = pair
  · rw [List.find?_cons_of_pos (by simpa using hr), if_pos hr, Option.map_some]
  · rw [List.find?_cons_of_neg (by simpa using hr), if_neg hr]

end Table

/-- The ends of an arc. -/
def Arc.ends (a : Arc) : String × String :=
  (a.parent, a.child)

namespace Arena

variable {g : Arena} {x y : String}

/-! ## One row -/

/-- An arena in which the ends of an arc are terms. -/
def ensureEnds (g : Arena) (a : Arc) : Arena :=
  (g.ensure a.parent).ensure a.child

theorem Valid.ensureEnds (hg : g.Valid) (a : Arc) : (g.ensureEnds a).Valid :=
  (hg.ensure a.parent).ensure a.child

theorem grows_ensureEnds (g : Arena) (a : Arc) : Grows g (g.ensureEnds a) :=
  (grows_ensureSlot g a.parent).trans (grows_ensureSlot _ a.child)

theorem links_ensure (g : Arena) (label : String) : (g.ensure label).links = g.links := by
  unfold ensure ensureSlot
  split <;> rfl

theorem links_ensureEnds (g : Arena) (a : Arc) : (g.ensureEnds a).links = g.links := by
  rw [ensureEnds, links_ensure, links_ensure]

/-- To relate two terms is to put a link between their slots. -/
theorem exists_relate_eq (g : Arena) (a : Arc) :
    ∃ s t, (g.ensureEnds a).index a.parent = some s ∧ (g.ensureEnds a).index a.child = some t ∧
      g.relate a = (g.ensureEnds a).putLink ⟨s, t, a.relation⟩ :=
  ⟨_, _, (grows_ensureSlot _ a.child).index _ _ (index_ensureSlot g a.parent),
    index_ensureSlot _ a.child, rfl⟩

/-- **A row gives its pair its relation, and the other pairs stay.** -/
theorem Valid.relation?_relate (hg : g.Valid) (a : Arc) (x y : String) :
    (g.relate a).relation? x y =
      if a.ends = (x, y) then some a.relation else g.relation? x y := by
  obtain ⟨s, t, hs, ht, he⟩ := exists_relate_eq g a
  have hh := hg.ensureEnds a
  have hbase : (g.ensureEnds a).relation? x y = g.relation? x y :=
    (grows_ensureEnds g a).relation?_eq hg hh (links_ensureEnds g a)
  rw [he, ← hbase, relation?_eq_bind, relation?_eq_bind, putLink_index]
  by_cases hends : a.ends = (x, y)
  · obtain ⟨rfl, rfl⟩ := Prod.mk.inj hends
    rw [if_pos hends, hs, ht, Option.bind_some, Option.bind_some, linked?_putLink hh.pairs,
      if_pos ⟨rfl, rfl⟩]
  · rw [if_neg hends]
    refine Option.bind_congr fun i hi => Option.bind_congr fun j hj => ?_
    rw [linked?_putLink hh.pairs, if_neg]
    rintro ⟨hsi, htj⟩
    refine hends (Prod.ext ?_ ?_)
    · by_contra hne
      exact hh.slot_ne hne hs hi hsi
    · by_contra hne
      exact hh.slot_ne hne ht hj htj

theorem mem_ends (hg : g.Valid) {a : Arc} :
    a.ends ∈ g.arcList.map Arc.ends ↔ (g.relation? a.parent a.child).isSome := by
  rw [List.mem_map, Option.isSome_iff_exists]
  constructor
  · rintro ⟨b, hb, he⟩
    obtain ⟨hp, hc⟩ := Prod.mk.inj he
    rw [← hp, ← hc]
    exact ⟨b.relation, hg.relation?_eq_some.2 hb⟩
  · rintro ⟨r, hr⟩
    exact ⟨_, hg.relation?_eq_some.1 hr, rfl⟩

theorem arcOf_putLink (g : Arena) (k l : Link) : (g.putLink k).arcOf l = g.arcOf l := by
  unfold arcOf labelAt
  rw [putLink_terms]

/-- Where no slot is vacant, a link keeps the place of its pair, or comes last if the pair is
new. -/
theorem ends_putLink (hv : g.links.vacant = []) (k : Link) :
    (g.putLink k).links.vacant = [] ∧
      (g.putLink k).arcList.map Arc.ends =
        if (g.link? k.source k.target).isSome then g.arcList.map Arc.ends
        else g.arcList.map Arc.ends ++ [(g.arcOf k).ends] := by
  have harcs : (g.putLink k).arcList = (g.putLink k).links.toList.map g.arcOf :=
    List.map_congr_left fun l _ => arcOf_putLink g k l
  rw [harcs, arcList]
  unfold putLink
  split
  · refine ⟨hv, ?_⟩
    show ((g.links.map fun _ l => _).toList.map g.arcOf).map Arc.ends = _
    rw [Slots.toList_map, List.map_map, List.map_map, List.map_map]
    refine List.map_congr_left fun l _ => ?_
    -- The link that takes the place of another has its ends.
    simp only [Function.comp, Link.joins, Bool.and_eq_true, beq_iff_eq]
    split
    · next hjoins => rw [Arc.ends, Arc.ends, arcOf, arcOf, hjoins.1, hjoins.2]
    · rfl
  · refine ⟨congrArg List.tail hv, ?_⟩
    rw [Slots.toList_insert hv, List.map_append, List.map_append]
    rfl

/-- **A row keeps the place of its pair, or comes last if the pair is new.** -/
theorem Valid.ends_relate (hg : g.Valid) (hv : g.links.vacant = []) (a : Arc) :
    (g.relate a).links.vacant = [] ∧
      (g.relate a).arcList.map Arc.ends =
        if a.ends ∈ g.arcList.map Arc.ends then g.arcList.map Arc.ends
        else g.arcList.map Arc.ends ++ [a.ends] := by
  obtain ⟨s, t, hs, ht, he⟩ := exists_relate_eq g a
  have hh := hg.ensureEnds a
  have hgrows := grows_ensureEnds g a
  have hlinks := links_ensureEnds g a
  have harcs : (g.ensureEnds a).arcList = g.arcList := hgrows.arcList_eq hg hh hlinks
  have hnew : ((g.ensureEnds a).arcOf ⟨s, t, a.relation⟩).ends = a.ends := by
    rw [Arc.ends, arcOf, hh.labelAt_of_index hs, hh.labelAt_of_index ht]
    rfl
  have hmem : a.ends ∈ g.arcList.map Arc.ends ↔ ((g.ensureEnds a).link? s t).isSome := by
    rw [mem_ends hg, ← hgrows.relation?_eq hg hh hlinks, relation?_eq_bind, hs, ht,
      Option.bind_some, Option.bind_some, isSome_linked?]
  have hput := ends_putLink (g := g.ensureEnds a) (by rw [hlinks, hv]) ⟨s, t, a.relation⟩
  rw [he]
  refine ⟨hput.1, hput.2.trans ?_⟩
  rw [harcs, hnew]
  exact if_congr hmem.symm rfl rfl

/-! ## All rows -/

/-- The arena of a table, without term types. -/
def ofTable (rows : List Row) : Arena :=
  (rows.map Row.toArc).foldl relate empty

theorem ofTable_append_singleton (rows : List Row) (r : Row) :
    ofTable (rows ++ [r]) = (ofTable rows).relate r.toArc := by
  rw [ofTable, List.map_append, List.foldl_append]
  rfl

theorem valid_ofTable (rows : List Row) : (ofTable rows).Valid :=
  valid_empty.foldl_relate _

/-- **The relation of a pair is that of its last row.** -/
theorem relation?_ofTable (rows : List Row) (x y : String) :
    (ofTable rows).relation? x y = Table.relation? rows (x, y) := by
  induction rows using List.reverseRecOn with
  | nil => rfl
  | append_singleton rows r ih =>
    rw [ofTable_append_singleton, (valid_ofTable rows).relation?_relate, ih,
      Table.relation?_append_singleton]
    rfl

/-- **The arcs are the pairs of the rows in the order of their first rows.** -/
theorem ends_ofTable (rows : List Row) :
    (ofTable rows).links.vacant = [] ∧
      (ofTable rows).arcList.map Arc.ends = Table.pairs rows := by
  induction rows using List.reverseRecOn with
  | nil => exact ⟨rfl, rfl⟩
  | append_singleton rows r ih =>
    obtain ⟨hv, he⟩ := (valid_ofTable rows).ends_relate ih.1 r.toArc
    rw [ofTable_append_singleton]
    refine ⟨hv, ?_⟩
    rw [he, ih.2, Table.pairs_append_singleton]
    rfl

/-- The pairs that the rank arcs relate, in slot order. -/
def rankPairs (g : Arena) : List (String × String) :=
  (g.arcList.filter fun a => a.relation.isRank).map Arc.ends

theorem mem_rankPairs (hg : g.Valid) : (x, y) ∈ g.rankPairs ↔ g.RankArc x y := by
  simp only [rankPairs, List.mem_map, List.mem_filter, RankArc, hg.relation?_eq_some]
  constructor
  · rintro ⟨a, ⟨ha, hrank⟩, he⟩
    obtain ⟨rfl, rfl⟩ := Prod.mk.inj he
    exact ⟨a.relation, ha, hrank⟩
  · rintro ⟨r, ha, hrank⟩
    exact ⟨⟨x, y, r⟩, ⟨ha, hrank⟩, rfl⟩

/-- **The rank arcs are the pairs whose last rows are rank rows.** -/
theorem rankPairs_ofTable (rows : List Row) :
    (ofTable rows).rankPairs = Table.rankPairs rows := by
  rw [Table.rankPairs, ← (ends_ofTable rows).2, List.filter_map, rankPairs]
  congr 1
  refine List.filter_congr fun a ha => ?_
  have hr := (valid_ofTable rows).relation?_eq_some.2 ha
  rw [relation?_ofTable] at hr
  rw [Function.comp, Arc.ends, hr]
  rfl

end Arena

end Ontogram
