import Ontogram.Proofs.Search.Preferred
import Ontogram.Proofs.Slots
import Ontogram.Proofs.TermGraph.Distances
import Ontogram.Proofs.TermGraph.Tables

/-!
# When a graph is enumerated in the order of insertion

Terms and arcs are listed in the order of their slots. A change removes before it adds, so whether
the order of insertion is kept depends on the slots that what it adds takes: the slots that were
vacated last lie wherever what was removed had been. Without a slot that was vacated below what is
left, the order is kept.

* `Change` — the changes of a graph, and what each leaves before it adds anything.
* `Change.followsInsertion_iff` — one change.
* `TermGraph.FollowsInsertion.prefersInserted` — where walks and paths prefer earlier arcs.
* `followsInsertion_run` — a run of changes without removals.
* `enumerates_insertions_iff` — any run of changes.
-/

namespace Ontogram

namespace Arena

variable {g h k : Arena}

/-! ## Arenas with more in them -/

/-- Terms and links were inserted, and some rewritten. -/
structure Extended (g h : Arena) : Prop where
  terms : g.terms.Extended h.terms
  links : g.links.Extended h.links

theorem Extended.refl (g : Arena) : Extended g g :=
  ⟨.refl, .refl⟩

theorem Extended.trans (hgh : Extended g h) (hhk : Extended h k) : Extended g k :=
  ⟨hgh.terms.trans hhk.terms, hgh.links.trans hhk.links⟩

theorem extended_addTerm (g : Arena) (t : Term) : Extended g (g.addTerm t) :=
  ⟨g.terms.extended_insert t, .refl⟩

theorem extended_mapTerms (g : Arena) (f : Nat → Term → Term) (index : Lookup String Nat) :
    Extended g ⟨g.terms.map f, g.links, index⟩ :=
  ⟨g.terms.extended_map f, .refl⟩

theorem extended_ensureSlot (g : Arena) (label : String) : Extended g (g.ensureSlot label).1 := by
  unfold ensureSlot
  split
  · exact .refl g
  · exact extended_addTerm g _

theorem extended_putTerm (g : Arena) (t : Term) : Extended g (g.putTerm t).1 := by
  unfold putTerm
  split
  · exact extended_mapTerms g _ _
  · exact extended_addTerm g t

theorem extended_rename (g : Arena) (slot : Nat) (old new : String) :
    Extended g (g.rename slot old new) :=
  extended_mapTerms g _ _

theorem extended_putLink (g : Arena) (l : Link) : Extended g (g.putLink l) := by
  have hmap : ∀ f, Extended g ⟨g.terms, g.links.map f, g.index⟩ := fun f =>
    ⟨.refl, g.links.extended_map f⟩
  unfold putLink
  split
  · exact hmap _
  · exact ⟨.refl, g.links.extended_insert l⟩

theorem extended_foldl {α : Type} {step : Arena → α → Arena}
    (hstep : ∀ g x, Extended g (step g x)) (xs : List α) (g : Arena) :
    Extended g (xs.foldl step g) :=
  List.foldlRecOn (motive := Extended g) xs step (.refl g) fun _ hg x _ => hg.trans (hstep _ x)

theorem extended_relate (g : Arena) (a : Arc) : Extended g (g.relate a) :=
  ((extended_ensureSlot g a.parent).trans (extended_ensureSlot _ a.child)).trans
    (extended_putLink _ _)

/-- What a rename leaves before it adds anything. If the new label is taken, the renamed term is
moved over the other one and its links go, of which some come back between other ends. -/
def restOfRelabel (g : Arena) (old new : String) : Arena :=
  if old = new then g
  else
    match g.index old, g.index new with
    | some source, some target => (g.forget old).moveTerm source target new
    | _, _ => g

theorem extended_relabel (g : Arena) (old new : String) :
    Extended (g.restOfRelabel old new) ((g.relabel? old new).getD g) := by
  unfold restOfRelabel relabel?
  split
  · split <;> exact .refl g
  · cases g.index old with
    | none => exact .refl g
    | some source =>
      cases g.index new with
      | none => exact extended_rename g source old new
      | some target => exact extended_foldl extended_putLink _ _

theorem extended_compose (g other : Arena) : Extended g (g.compose other) := by
  have hterms : Extended g (other.terms.entries.foldl takeTerm (g, .empty)).1 :=
    List.foldlRecOn (motive := fun s : Arena × Lookup Nat Nat => Extended g s.1) _ takeTerm
      (.refl g) fun s hs e _ => hs.trans (extended_putTerm s.1 e.2)
  refine hterms.trans (extended_foldl (fun g l => ?_) _ _)
  unfold takeLink
  split
  · exact extended_putLink g _
  · exact .refl g

/-- The types of the terms are written over them. -/
theorem extended_deriveTypes (hr : g.deriveTypes = .ok h) : Extended g h := by
  have htyped : ∀ (hs : List (List Nat)) (typed : Arena),
      hs.foldlM g.typeHierarchy typed = .ok h → Extended typed h := by
    intro hs
    induction hs with
    | nil =>
      intro typed hr
      rw [List.foldlM_nil] at hr
      exact Except.ok.inj hr ▸ .refl typed
    | cons members hs ih =>
      intro typed hr
      rw [List.foldlM_cons] at hr
      cases hm : g.typeHierarchy typed members with
      | error e =>
        rw [hm] at hr
        cases hr
      | ok next =>
        rw [hm] at hr
        refine Extended.trans ?_ (ih next hr)
        unfold typeHierarchy at hm
        split at hm
        · exact Except.ok.inj hm ▸ extended_mapTerms typed _ _
        · cases hm
  exact htyped g.hierarchies g hr

theorem extended_ofRows {rows : List Row} (hr : ofRows rows = .ok h) : Extended empty h :=
  (extended_foldl extended_relate (rows.map Row.toArc) empty).trans (extended_deriveTypes hr)

/-- No slot of a term is vacant, and none of a link. -/
structure Unvacated (g : Arena) : Prop where
  terms : g.terms.vacant = []
  links : g.links.vacant = []

theorem unvacated_empty : empty.Unvacated :=
  ⟨rfl, rfl⟩

theorem Extended.unvacated (h : Extended g k) (hg : g.Unvacated) : k.Unvacated :=
  ⟨h.terms.vacant_eq_nil hg.terms, h.links.vacant_eq_nil hg.links⟩

/-! ## Arenas with less in them -/

/-- The slots of the terms and those of the links are in the order of insertion. -/
structure InOrder (g : Arena) : Prop where
  terms : g.terms.InOrder
  links : g.links.InOrder

theorem inOrder_empty : empty.InOrder :=
  ⟨Slots.inOrder_empty, Slots.inOrder_empty⟩

theorem InOrder.vacate (hg : g.InOrder) (slot : Nat) : (g.vacate slot).InOrder :=
  ⟨hg.terms.eraseWhere _, (hg.links.eraseWhere _).eraseWhere _⟩

theorem InOrder.moveTerm (hg : g.InOrder) (old new : Nat) (label : String) :
    (g.moveTerm old new label).InOrder := by
  unfold Arena.moveTerm
  split
  · exact ⟨(Slots.inOrder_map _ _).2 (hg.vacate old).terms, (hg.vacate old).links⟩
  · exact hg

theorem InOrder.restOfRelabel (hg : g.InOrder) (old new : String) :
    (g.restOfRelabel old new).InOrder := by
  unfold Arena.restOfRelabel
  split
  · exact hg
  · split
    · exact InOrder.moveTerm (g := g.forget old) ⟨hg.terms, hg.links⟩ _ _ new
    · exact hg

theorem InOrder.remove? {label : String} (hg : g.InOrder) (hr : g.remove? label = some h) :
    h.InOrder := by
  obtain ⟨slot, -, rfl⟩ := Option.map_eq_some_iff.1 hr
  exact InOrder.vacate (g := g.forget label) ⟨hg.terms, hg.links⟩ slot

theorem InOrder.removeWhere (hg : g.InOrder) (p : Term → Bool) : (g.removeWhere p).1.InOrder := by
  refine List.foldlRecOn (motive := fun s : Arena × Nat => s.1.InOrder) _ removeCounting hg
    fun s hs label _ => ?_
  unfold removeCounting
  split
  · next hr => exact hs.remove? hr
  · exact hs

end Arena

/-! ## Changes -/

/-- A change of a graph. -/
inductive Change where
  /-- Starts over with the graph of a table. -/
  | load (rows : List Row)
  | ensure (label : String)
  | relate (a : Arc)
  | relabel (old new : String)
  | remove (label : String)
  | removeWhere (p : Term → Bool)
  | retain (keep : List String)
  | compose (other : TermGraph)

namespace Change

open Arena

variable {g : TermGraph}

/-- The graph after a change. A change that is refused leaves the graph as it is. -/
def apply (g : TermGraph) : Change → TermGraph
  | load rows => (TermGraph.ofRows rows).toOption.getD g
  | ensure label => g.ensure label
  | relate a => g.relate a
  | relabel old new => (g.relabel? old new).getD g
  | remove label => (g.remove? label).getD g
  | removeWhere p => (g.removeWhere p).1
  | retain keep => g.retain keep
  | compose other => g.compose other

/-- What a change leaves of a graph before it adds anything. Of the changes that remove, only that
of a table and a rename to a label that is taken add something as well. -/
def rest (g : TermGraph) : Change → Arena
  | load rows => if (TermGraph.ofRows rows).toOption.isSome then .empty else g.toArena
  | relabel old new => g.restOfRelabel old new
  | remove label => (apply g (remove label)).toArena
  | removeWhere p => (apply g (removeWhere p)).toArena
  | retain keep => (apply g (retain keep)).toArena
  | ensure _ | relate _ | compose _ => g.toArena

theorem extended_load (g : TermGraph) (rows : List Row) :
    Extended (rest g (load rows)) (apply g (load rows)).toArena := by
  simp only [rest, apply]
  cases hr : TermGraph.ofRows rows with
  | error members => exact .refl g.toArena
  | ok h =>
    have hok : Arena.ofRows rows = .ok h.toArena := by
      unfold TermGraph.ofRows at hr
      split at hr
      · next hok =>
        obtain rfl := Except.ok.inj hr
        exact hok
      · cases hr
    exact extended_ofRows hok

/-- A change of an arena is refused if the change of its graph is. -/
theorem toArena_getD_pmap (g : TermGraph) (o : Option Arena) (h : ∀ a, o = some a → a.Valid) :
    ((o.pmap TermGraph.mk h).getD g).toArena = o.getD g.toArena := by
  cases o <;> rfl

/-- **What a change adds comes to what it left.** -/
theorem extended_apply (g : TermGraph) (c : Change) :
    Extended (c.rest g) (c.apply g).toArena := by
  cases c with
  | load rows => exact extended_load g rows
  | ensure label => exact extended_ensureSlot g.toArena label
  | relate a => exact extended_relate g.toArena a
  | relabel old new =>
    simp only [rest, apply, TermGraph.relabel?, toArena_getD_pmap]
    exact extended_relabel g.toArena old new
  | remove label => exact .refl _
  | removeWhere p => exact .refl _
  | retain keep => exact .refl _
  | compose other => exact extended_compose g.toArena other.toArena

/-- **What a change leaves stays in the order of insertion.** -/
theorem inOrder_rest (hg : g.InOrder) (c : Change) : (c.rest g).InOrder := by
  cases c with
  | load rows =>
    simp only [rest]
    split
    · exact inOrder_empty
    · exact hg
  | relabel old new => exact hg.restOfRelabel old new
  | remove label =>
    simp only [rest, apply, TermGraph.remove?, toArena_getD_pmap]
    cases hr : g.toArena.remove? label with
    | none => exact hg
    | some h => exact hg.remove? hr
  | removeWhere p => exact hg.removeWhere p
  | retain keep => exact hg.removeWhere _
  | ensure | relate | compose => exact hg

/-- What a change adds takes slots above those of what it left, each above the one before it. -/
structure HasRoom (c : Change) (g : TermGraph) : Prop where
  terms : (c.rest g).terms.Room ((c.apply g).size - (c.rest g).size)
  links : (c.rest g).links.Room ((c.apply g).arcCount - (c.rest g).arcCount)

/-- There is room where no slot is vacant. -/
theorem hasRoom_of_unvacated {c : Change} (h : (c.rest g).Unvacated) : c.HasRoom g :=
  ⟨Slots.room_of_vacant_eq_nil h.terms _, Slots.room_of_vacant_eq_nil h.links _⟩

/-- **A change keeps the order of insertion if and only if there is room.** -/
theorem inOrder_apply_iff (hg : g.InOrder) (c : Change) :
    (c.apply g).InOrder ↔ c.HasRoom g := by
  have hext := extended_apply g c
  have hrest := inOrder_rest hg c
  constructor
  · intro h
    exact ⟨(hext.terms.inOrder_iff.1 h.terms).2, (hext.links.inOrder_iff.1 h.links).2⟩
  · intro h
    exact ⟨hext.terms.inOrder_iff.2 ⟨hrest.terms, h.terms⟩,
      hext.links.inOrder_iff.2 ⟨hrest.links, h.links⟩⟩

end Change

/-! ## Enumeration -/

namespace TermGraph

open Arena

variable {g : TermGraph}

/-- The arcs in the order in which they were inserted. -/
def insertedArcs (g : TermGraph) : List Arc :=
  g.links.inserted.map g.arcOf

/-- Terms and arcs are listed in the order in which they were inserted. -/
structure FollowsInsertion (g : TermGraph) : Prop where
  terms : g.termList = g.terms.inserted
  arcs : g.arcList = g.insertedArcs

theorem followsInsertion_iff (g : TermGraph) : g.FollowsInsertion ↔ g.InOrder := by
  have hterms : (g.terms.toList.map id).Nodup := by
    rw [List.map_id]
    exact .of_map Term.label g.valid.labels_nodup
  have harcs : (g.links.toList.map g.arcOf).Nodup := .of_map Arc.toRow (.of_map _ g.valid.pairs_nodup)
  have ht := Slots.map_toList_eq_iff hterms
  have ha := Slots.map_toList_eq_iff harcs
  rw [List.map_id, List.map_id] at ht
  exact ⟨fun h => ⟨ht.1 h.terms, ha.1 h.arcs⟩, fun h => ⟨ht.2 h.terms, ha.2 h.links⟩⟩

/-! ## Walks and paths -/

/-- The relation of one pair was inserted before that of another. -/
def InsertedBefore (g : TermGraph) (x y : String × String) : Prop :=
  Precedes (g.insertedArcs.map Arc.ends) x y

/-- Of two steps down from a term, the relation of the first was inserted before. -/
def StepInserted (g : TermGraph) (a b c : String) : Prop :=
  g.InsertedBefore (a, b) (a, c)

/-- Of two steps up from a term, the relation of the first was inserted before. -/
def StepUpInserted (g : TermGraph) (a b c : String) : Prop :=
  g.InsertedBefore (b, a) (c, a)

/-- What stands in the order of some of the arcs was inserted in it. -/
theorem FollowsInsertion.exists_insertedBefore (h : g.FollowsInsertion) {p : Arc → Bool}
    {f : Arc → String} {b c : String} (hbc : Precedes ((g.arcList.filter p).map f) b c) :
    ∃ x y, p x = true ∧ p y = true ∧ f x = b ∧ f y = c ∧ g.InsertedBefore x.ends y.ends := by
  obtain ⟨x, y, hxy, hx, hy⟩ := hbc.exists_of_map
  have harcs : Precedes g.insertedArcs x y := h.arcs ▸ hxy.trans List.filter_sublist
  exact ⟨x, y, (List.mem_filter.1 hxy.mem_left).2, (List.mem_filter.1 hxy.mem_right).2, hx, hy,
    harcs.map Arc.ends⟩

theorem FollowsInsertion.stepInserted (h : g.FollowsInsertion) {a b c : String}
    (hbc : Search.StepBefore g.children a b c) : g.StepInserted a b c := by
  obtain ⟨x, y, hx, hy, rfl, rfl, hxy⟩ := h.exists_insertedBefore hbc
  rwa [Arc.ends, Arc.ends, eq_of_beq hx, eq_of_beq hy] at hxy

theorem FollowsInsertion.stepUpInserted (h : g.FollowsInsertion) {a b c : String}
    (hbc : Search.StepBefore g.rankParents a b c) : g.StepUpInserted a b c := by
  obtain ⟨x, y, hx, hy, rfl, rfl, hxy⟩ := h.exists_insertedBefore hbc
  rw [Bool.and_eq_true] at hx hy
  rwa [Arc.ends, Arc.ends, eq_of_beq hx.1, eq_of_beq hy.1] at hxy

/-- A walk finds an item on a way that is preferred to the ways to those it finds later. -/
theorem exists_preferred {next : String → List String} {r : String → String → Prop}
    (hr : ∀ a b, b ∈ next a ↔ r a b)
    (hends : ∀ {a b}, r a b → g.contains a = true ∧ g.contains b = true) {label x y : String}
    (hxy : Precedes (if g.contains label then (Search.reached next g.size label).drop 1 else [])
      x y) :
    ∃ p, IsPath r label x p ∧ ∀ q, IsPath r label y q → Preferred (Search.StepBefore next) p q := by
  rw [← mem_next_eq hr]
  split at hxy
  · next hl =>
    refine Search.exists_preferred_of_precedes (fun z hz => ?_) (Nat.le_of_eq g.length_labels)
      (hxy.trans (List.drop_sublist 1 _))
    exact g.valid.mem_labels.2 (contains_of_reaches (fun a b hb => (hends ((hr a b).1 hb)).2) hl hz)
  · exact absurd hxy.mem_left List.not_mem_nil

/-- Walks and paths prefer arcs that were inserted earlier. A path is preferred to every other one
between its ends, and what a walk lists is found on a way that is preferred to every way to what is
listed later. -/
structure PrefersInserted (g : TermGraph) : Prop where
  path : ∀ source target p q, g.shortestPath? source target = some p →
    IsPath g.Related source target q → Preferred g.StepInserted p q
  below : ∀ label x y, Precedes (g.descendants label) x y → ∃ p, IsPath g.Related label x p ∧
    ∀ q, IsPath g.Related label y q → Preferred g.StepInserted p q
  above : ∀ label x y, Precedes (g.rankAncestors label) x y →
    ∃ p, IsPath (Function.swap g.RankArc) label x p ∧
      ∀ q, IsPath (Function.swap g.RankArc) label y q → Preferred g.StepUpInserted p q

/-- **Where a graph is enumerated in the order of insertion, walks and paths prefer what was inserted
earlier.** -/
theorem FollowsInsertion.prefersInserted (h : g.FollowsInsertion) : g.PrefersInserted where
  path := by
    intro source target p q hp hq
    unfold Arena.shortestPath? at hp
    split at hp
    · next hc =>
      have hs : g.contains source = true := (Bool.and_eq_true_iff.1 hc).1
      rw [← g.children_eq] at hq
      exact (Search.trail?_preferred (fun _ hx => mem_labels_of_reaches hs hx)
        (Nat.le_of_eq g.length_labels) hp (Or.inl rfl) hq).mono fun _ _ _ => h.stepInserted
    · cases hp
  below := by
    intro label x y hxy
    obtain ⟨p, hp, hall⟩ :=
      exists_preferred (fun _ _ => mem_children g.valid) contains_of_relation? hxy
    exact ⟨p, hp, fun q hq => (hall q hq).mono fun _ _ _ => h.stepInserted⟩
  above := by
    intro label x y hxy
    obtain ⟨p, hp, hall⟩ :=
      exists_preferred (fun _ _ => mem_rankParents g.valid) (fun h => h.contains.symm) hxy
    exact ⟨p, hp, fun q hq => (hall q hq).mono fun _ _ _ => h.stepUpInserted⟩

/-! ## Runs -/

/-- The graph after some changes of the one without terms. -/
def run (cs : List Change) : TermGraph :=
  cs.foldl Change.apply .empty

theorem run_append_singleton (cs : List Change) (c : Change) :
    run (cs ++ [c]) = c.apply (run cs) := by
  rw [run, List.foldl_append]
  rfl

/-- **Without removals the order of insertion is kept**: a run is enumerated in it if each change
leaves the graph as it was before it adds anything, or starts over. -/
theorem followsInsertion_run {cs : List Change}
    (h : ∀ ds c, ds ++ [c] <+: cs →
      c.rest (run ds) = (run ds).toArena ∨ c.rest (run ds) = .empty) :
    (run cs).FollowsInsertion := by
  have hall : ∀ ds, ds <+: cs → (run ds).InOrder ∧ (run ds).Unvacated := by
    intro ds
    induction ds using List.reverseRecOn with
    | nil => exact fun _ => ⟨inOrder_empty, unvacated_empty⟩
    | append_singleton ds c ih =>
      intro hc
      obtain ⟨hinOrder, hunvacated⟩ := ih ((List.prefix_append ds [c]).trans hc)
      have hrest : (c.rest (run ds)).Unvacated := by
        rcases h ds c hc with hsame | hnone
        · exact hsame ▸ hunvacated
        · exact hnone ▸ unvacated_empty
      rw [run_append_singleton]
      exact ⟨(Change.inOrder_apply_iff hinOrder c).2 (Change.hasRoom_of_unvacated hrest),
        (Change.extended_apply (run ds) c).unvacated hrest⟩
  exact (followsInsertion_iff _).2 (hall cs (List.prefix_refl cs)).1

/--
**When graphs are enumerated in the order of insertion.**

Along a run of changes, the terms and the arcs of all graphs are listed in the order in which they
were inserted if and only if what each change adds takes slots above those of what it left. A graph
that is listed so has walks and paths that prefer what was inserted earlier.
-/
theorem enumerates_insertions_iff (cs : List Change) :
    ((∀ ds, ds <+: cs → (run ds).FollowsInsertion) ↔
      ∀ ds c, ds ++ [c] <+: cs → c.HasRoom (run ds)) ∧
    ∀ ds, ds <+: cs → (run ds).FollowsInsertion → (run ds).PrefersInserted := by
  refine ⟨⟨fun h ds c hc => ?_, fun h ds => ?_⟩, fun _ _ h => h.prefersInserted⟩
  · have hbefore := (followsInsertion_iff _).1 (h ds ((List.prefix_append ds [c]).trans hc))
    have hafter := (followsInsertion_iff _).1 (h _ hc)
    rw [run_append_singleton] at hafter
    exact (Change.inOrder_apply_iff hbefore c).1 hafter
  · rw [followsInsertion_iff]
    induction ds using List.reverseRecOn with
    | nil => exact fun _ => inOrder_empty
    | append_singleton ds c ih =>
      intro hc
      rw [run_append_singleton]
      exact (Change.inOrder_apply_iff (ih ((List.prefix_append ds [c]).trans hc)) c).2 (h ds c hc)

/-- Inserts a term once the first of two terms was removed. -/
def reusing : List Change :=
  [.ensure "a", .ensure "b", .remove "a", .ensure "c"]

/-- Relates a term to another in the place of the one that it was related to last. -/
def refilling : List Change :=
  [.relate ⟨"a", "b", ⟨"r", false⟩⟩, .relate ⟨"a", "c", ⟨"r", false⟩⟩, .remove "c",
    .relate ⟨"a", "d", ⟨"r", false⟩⟩]

/-- A term in the slot of an earlier one stands before the terms in between. In the slot of the last
one it stands last, and so does its arc. -/
theorem enumerates_insertions_iff_reusing :
    (run reusing).labels = ["c", "b"] ∧
      (run reusing).terms.inserted.map Term.label = ["b", "c"] ∧
      (∃ ds c, ds ++ [c] <+: reusing ∧ ¬c.HasRoom (run ds)) ∧
      (run refilling).arcList.map Arc.ends = [("a", "b"), ("a", "d")] ∧
      (run refilling).PrefersInserted := by
  have hlabels : (run reusing).labels = ["c", "b"] := by decide +kernel
  have hinserted : (run reusing).terms.inserted.map Term.label = ["b", "c"] := by decide +kernel
  have hrefilled : (run refilling).FollowsInsertion := ⟨by decide +kernel, by decide +kernel⟩
  refine ⟨hlabels, hinserted, ?_, by decide +kernel,
    (enumerates_insertions_iff refilling).2 _ (List.prefix_refl _) hrefilled⟩
  by_contra hroom
  push Not at hroom
  have hall := (enumerates_insertions_iff reusing).1.2 hroom _ (List.prefix_refl _)
  rw [Arena.labels, hall.terms, hinserted] at hlabels
  exact absurd hlabels (by decide)

end TermGraph

end Ontogram
