import Ontogram.Proofs.DisjointSets
import Ontogram.Proofs.Hierarchies
import Ontogram.Proofs.TermGraph.Tables

/-!
# The types of a table

A table is accepted if each of its rank hierarchies has a top, and then every term of a hierarchy
has its root as type. The hierarchies are found and typed by slot; that the labels tell the same is
because a live slot is known by its label.

* `isHierarchyOf`, `exists_hierarchy` — the groups of slots are the hierarchies.
* `foldlM_typeHierarchy` — all that a run over some hierarchies can do.
* `Valid.termType_of_mem_mentions`, `Valid.deriveTypes_error` — what it gives, by label.
* `TermGraph.ofRows_types_hierarchies` — what a table gives.
* `TermGraph.ofRows_accepts_iff_cycles_rooted` — a cycle is accepted below a top, and only there.
-/

namespace Ontogram

open Hierarchy

namespace Arena

variable {g h typed : Arena} {hs : List (List Nat)} {ms : List Nat} {i root : Nat}
  {members : List String} {x : String}

/-! ## The hierarchies by slot -/

/-- The slots that the rank links join. -/
def rankJoins (g : Arena) : List (Nat × Nat) :=
  g.rankLinks.map fun k => (k.source, k.target)

theorem firstMentions_eq (seen xs : List Nat) :
    firstMentions seen xs = (xs.filter fun x => !seen.contains x).eraseDups := by
  induction xs generalizing seen with
  | nil => rfl
  | cons x xs ih =>
    rw [firstMentions]
    split
    · next hx => rw [ih, List.filter_cons_of_neg (by simpa using hx)]
    · next hx =>
      rw [ih, List.filter_cons_of_pos (by simpa using hx), List.eraseDups_cons, List.filter_filter]
      congr 2
      refine List.filter_congr fun y _ => ?_
      rw [List.contains_cons, Bool.not_or]

theorem rankSlots_eq (g : Arena) : g.rankSlots = mentions g.rankJoins := by
  have hall : ∀ xs : List Nat, (xs.filter fun x => !([] : List Nat).contains x) = xs := fun xs =>
    List.filter_eq_self.2 fun _ _ => rfl
  rw [rankSlots, firstMentions_eq, hall, mentions, rankJoins, List.flatMap_map]

theorem mem_hierarchies :
    ms ∈ g.hierarchies ↔ ∃ key, (key, ms) ∈ g.rankSets.groups g.rankSlots := by
  have hperm := Sorting.perm_sort Slots.bySlot_ne_eq (g.rankSets.groups g.rankSlots)
  rw [hierarchies, List.mem_map]
  constructor
  · rintro ⟨⟨key, _⟩, hm, rfl⟩
    exact ⟨key, hperm.mem_iff.1 hm⟩
  · rintro ⟨key, hm⟩
    exact ⟨_, hperm.mem_iff.2 hm, rfl⟩

theorem find_rankSets_eq_iff {i j : Nat} :
    g.rankSets.find i = g.rankSets.find j ↔ Joined g.rankJoins i j :=
  DisjointSets.find_ofPairs_eq_iff g.rankJoins i j

theorem exists_mem_of_mem_hierarchies (hms : ms ∈ g.hierarchies) : ∃ i, i ∈ ms := by
  obtain ⟨key, hgroup⟩ := mem_hierarchies.1 hms
  exact List.exists_mem_of_ne_nil ms ((g.rankSets.grouped_groups g.rankSlots).ne_nil _ hgroup)

/-- **A group of slots is the hierarchy of each of them.** -/
theorem isHierarchyOf (hms : ms ∈ g.hierarchies) (hi : i ∈ ms) :
    i ∈ mentions g.rankJoins ∧ IsHierarchyOf g.rankJoins ms i := by
  obtain ⟨key, hgroup⟩ := mem_hierarchies.1 hms
  -- The members are the slots that have the representative of the group, which is that of `i`.
  have hmem : ∀ j, j ∈ ms ↔ j ∈ mentions g.rankJoins ∧ g.rankSets.find j = key := fun j => by
    rw [← rankSlots_eq]
    exact DisjointSets.mem_group_iff hgroup
  obtain ⟨him, hkey⟩ := (hmem i).1 hi
  refine ⟨him, ?_, fun j => ?_⟩
  · rw [← rankSlots_eq]
    exact DisjointSets.group_sublist hgroup
  · rw [hmem, ← hkey, eq_comm, find_rankSets_eq_iff]
    exact and_iff_right_of_imp fun hj => hj.mem_mentions_iff.1 him

/-- **Every slot of a rank link is in a group.** -/
theorem exists_hierarchy (hi : i ∈ mentions g.rankJoins) : ∃ ms ∈ g.hierarchies, i ∈ ms := by
  rw [← rankSlots_eq] at hi
  obtain ⟨⟨key, ms⟩, hgroup, him⟩ :=
    List.mem_flatMap.1 ((g.rankSets.flatMap_groups_perm g.rankSlots).mem_iff.2 hi)
  exact ⟨ms, mem_hierarchies.2 ⟨key, hgroup⟩, him⟩

theorem not_reached_iff_isTopmost :
    (!g.rankLinks.any fun k => k.target == i) = true ↔ IsTopmost g.rankJoins i := by
  rw [Bool.not_eq_true', List.any_eq_false]
  constructor
  · intro hno j hj
    obtain ⟨k, hk, he⟩ := List.mem_map.1 hj
    exact hno k hk (beq_iff_eq.2 (Prod.mk.inj he).2)
  · intro htop k hk htarget
    exact htop k.source (List.mem_map.2 ⟨k, hk, by rw [beq_iff_eq.1 htarget]⟩)

theorem isRootOf_of_hierarchyRoot? (hms : IsHierarchyOf g.rankJoins ms i)
    (hroot : g.hierarchyRoot? ms = some root) : IsRootOf g.rankJoins root i :=
  hms.isRootOf (fun _ => not_reached_iff_isTopmost) hroot

theorem hierarchyRoot?_eq_none (hi : i ∈ mentions g.rankJoins)
    (hms : IsHierarchyOf g.rankJoins ms i) :
    g.hierarchyRoot? ms = none ↔ Rootless g.rankJoins i := by
  rw [hierarchyRoot?, List.find?_eq_none, Rootless]
  simp only [not_reached_iff_isTopmost, hms.2]
  exact (and_iff_right hi).symm

/-! ## Typing by slot -/

/-- The slot has the root of a hierarchy of its own as type, or none of the hierarchies has it. -/
def TypedBy (g : Arena) (hs : List (List Nat)) (i : Nat) (t u : Term) : Prop :=
  (∃ ms ∈ hs, i ∈ ms ∧ ∃ root, g.hierarchyRoot? ms = some root ∧
    u.termType = some (g.labelAt root)) ∨ ((∀ ms ∈ hs, i ∉ ms) ∧ u.termType = t.termType)

/-- What is left once the hierarchies `hs` of `g` have got their types. -/
structure Retyped (g : Arena) (hs : List (List Nat)) (typed h : Arena) : Prop where
  index : h.index = typed.index
  links : h.links = typed.links
  roots : ∀ ms ∈ hs, ∃ root, g.hierarchyRoot? ms = some root
  terms : ∀ i t, typed.terms.get? i = some t → ∃ u, h.terms.get? i = some u ∧ TypedBy g hs i t u

theorem retyped_nil (g typed : Arena) : Retyped g [] typed typed where
  index := rfl
  links := rfl
  roots := nofun
  terms := fun _ t ht => ⟨t, ht, Or.inr ⟨nofun, rfl⟩⟩

/-- A hierarchy that is typed before the others keeps its type where they do not overwrite it. -/
theorem Retyped.cons (hr : Retyped g hs (typed.setTypes ms (g.labelAt root)) h)
    (hroot : g.hierarchyRoot? ms = some root) : Retyped g (ms :: hs) typed h where
  index := hr.index
  links := hr.links
  roots := List.forall_mem_cons.2 ⟨⟨root, hroot⟩, hr.roots⟩
  terms := by
    intro i t ht
    have hset : (typed.setTypes ms (g.labelAt root)).terms.get? i =
        some (if ms.contains i then { t with termType := some (g.labelAt root) } else t) := by
      rw [setTypes, Slots.get?_map, ht, Option.map_some]
    obtain ⟨u, hu, htyped⟩ := hr.terms i _ hset
    refine ⟨u, hu, ?_⟩
    rcases htyped with ⟨ms', hms', hrest⟩ | ⟨hnone, htype⟩
    · -- A later hierarchy that has the slot overwrites its type.
      exact Or.inl ⟨ms', List.mem_cons_of_mem _ hms', hrest⟩
    · by_cases hi : i ∈ ms
      · rw [if_pos (List.contains_iff_mem.2 hi)] at htype
        exact Or.inl ⟨ms, List.mem_cons_self, hi, root, hroot, htype⟩
      · rw [if_neg (mt List.contains_iff_mem.1 hi)] at htype
        exact Or.inr ⟨List.forall_mem_cons.2 ⟨hi, hnone⟩, htype⟩

/-- **A run gives every hierarchy its type, or it ends at one that has no root.** -/
theorem foldlM_typeHierarchy (g : Arena) (hs : List (List Nat)) (typed : Arena) :
    (∃ h, hs.foldlM g.typeHierarchy typed = .ok h ∧ Retyped g hs typed h) ∨
      ∃ ms ∈ hs, g.hierarchyRoot? ms = none ∧
        hs.foldlM g.typeHierarchy typed = .error (ms.map g.labelAt) := by
  induction hs generalizing typed with
  | nil => exact Or.inl ⟨typed, rfl, retyped_nil g typed⟩
  | cons ms hs ih =>
    rw [List.foldlM_cons]
    cases hroot : g.hierarchyRoot? ms with
    | none =>
      have hstep : g.typeHierarchy typed ms = .error (ms.map g.labelAt) := by
        rw [typeHierarchy, hroot]
      rw [hstep]
      exact Or.inr ⟨ms, List.mem_cons_self, hroot, rfl⟩
    | some root =>
      have hstep : g.typeHierarchy typed ms = .ok (typed.setTypes ms (g.labelAt root)) := by
        rw [typeHierarchy, hroot]
      rw [hstep]
      rcases ih (typed.setTypes ms (g.labelAt root)) with ⟨h, hr, hrest⟩ | ⟨ms', hms', hnone, hr⟩
      · exact Or.inl ⟨h, hr, hrest.cons hroot⟩
      · exact Or.inr ⟨ms', List.mem_cons_of_mem ms hms', hnone, hr⟩

theorem retyped_of_deriveTypes (hr : g.deriveTypes = .ok h) : Retyped g g.hierarchies g h := by
  rcases foldlM_typeHierarchy g g.hierarchies g with ⟨h', hr', hretyped⟩ | ⟨ms, -, -, hr'⟩
  · obtain rfl := Except.ok.inj (hr.symm.trans hr')
    exact hretyped
  · cases hr.symm.trans hr'

theorem exists_of_deriveTypes_error (hr : g.deriveTypes = .error members) :
    ∃ ms ∈ g.hierarchies, g.hierarchyRoot? ms = none ∧ members = ms.map g.labelAt := by
  rcases foldlM_typeHierarchy g g.hierarchies g with ⟨h, hr', -⟩ | ⟨ms, hms, hnone, hr'⟩
  · cases hr.symm.trans hr'
  · exact ⟨ms, hms, hnone, Except.error.inj (hr.symm.trans hr')⟩

/-! ## Typing by label -/

theorem rankPairs_eq (g : Arena) :
    g.rankPairs = g.rankJoins.map (Prod.map g.labelAt g.labelAt) := by
  rw [rankPairs, arcList, List.filter_map, List.map_map, rankJoins, List.map_map]
  rfl

theorem Valid.holds_of_mem_mentions (hg : g.Valid) (hi : i ∈ mentions g.rankJoins) :
    Holds g.terms i := by
  obtain ⟨j, hj⟩ := mem_mentions.1 hi
  simp only [Heads, rankJoins, rankLinks, List.mem_map, List.mem_filter, Prod.mk.injEq] at hj
  rcases hj with ⟨k, ⟨hk, -⟩, rfl, -⟩ | ⟨k, ⟨hk, -⟩, -, rfl⟩
  · obtain ⟨slot, hslot⟩ := Slots.mem_toList.1 hk
    exact (hg.ends slot k hslot).1
  · obtain ⟨slot, hslot⟩ := Slots.mem_toList.1 hk
    exact (hg.ends slot k hslot).2

/-- The labels keep the slots of the rank links apart. -/
theorem Valid.labelAt_injOn (hg : g.Valid) :
    ∀ i ∈ mentions g.rankJoins, ∀ j ∈ mentions g.rankJoins, g.labelAt i = g.labelAt j → i = j :=
  fun _ hi _ hj => hg.labelAt_inj (hg.holds_of_mem_mentions hi) (hg.holds_of_mem_mentions hj)

theorem Valid.mem_mentions_rankPairs (hg : g.Valid) :
    x ∈ mentions g.rankPairs ↔ ∃ i ∈ mentions g.rankJoins, g.labelAt i = x := by
  rw [rankPairs_eq, mentions_map hg.labelAt_injOn, List.mem_map]

/-- **The error names the members of a hierarchy without a top.** -/
theorem Valid.deriveTypes_error (hg : g.Valid) (hr : g.deriveTypes = .error members) :
    ∃ x, Rootless g.rankPairs x ∧ IsHierarchyOf g.rankPairs members x := by
  obtain ⟨ms, hms, hnone, rfl⟩ := exists_of_deriveTypes_error hr
  obtain ⟨i, hi⟩ := exists_mem_of_mem_hierarchies hms
  obtain ⟨him, hhier⟩ := isHierarchyOf hms hi
  rw [rankPairs_eq]
  refine ⟨g.labelAt i, ?_, hhier.map hg.labelAt_injOn him⟩
  rw [rootless_map hg.labelAt_injOn him]
  exact (hierarchyRoot?_eq_none him hhier).1 hnone

/-- **Where types were derived, every hierarchy has a top.** -/
theorem Valid.not_rootless (hg : g.Valid) (hr : g.deriveTypes = .ok h) (x : String) :
    ¬ Rootless g.rankPairs x := by
  intro hx
  obtain ⟨i, him, rfl⟩ := hg.mem_mentions_rankPairs.1 hx.1
  rw [rankPairs_eq, rootless_map hg.labelAt_injOn him] at hx
  obtain ⟨ms, hms, hi⟩ := exists_hierarchy him
  obtain ⟨root, hroot⟩ := (retyped_of_deriveTypes hr).roots ms hms
  rw [(hierarchyRoot?_eq_none him (isHierarchyOf hms hi).2).2 hx] at hroot
  cases hroot

/-- **A derivation gives the terms of a hierarchy its root as type.** -/
theorem Valid.termType_of_mem_mentions (hg : g.Valid) (hr : g.deriveTypes = .ok h)
    (hx : x ∈ mentions g.rankPairs) : ∃ root, IsRootOf g.rankPairs root x ∧
      ∃ u, h.term? x = some u ∧ u.termType = some root := by
  have hretyped := retyped_of_deriveTypes hr
  obtain ⟨i, him, rfl⟩ := hg.mem_mentions_rankPairs.1 hx
  obtain ⟨t, ht⟩ := hg.holds_of_mem_mentions him
  obtain ⟨u, hu, htyped⟩ := hretyped.terms i t ht
  have hterm : h.term? (g.labelAt i) = some u := by
    rw [term?, hretyped.index, hg.index_labelAt ⟨t, ht⟩, Option.bind_some, hu]
  rcases htyped with ⟨ms, hms, hi, root, hroot, htype⟩ | ⟨hnone, -⟩
  · refine ⟨g.labelAt root, ?_, u, hterm, htype⟩
    rw [rankPairs_eq]
    exact (isRootOf_of_hierarchyRoot? (isHierarchyOf hms hi).2 hroot).map hg.labelAt_injOn him
  · obtain ⟨ms, hms, hi⟩ := exists_hierarchy him
    exact absurd hi (hnone ms hms)

/-- **The terms of no hierarchy keep their types.** -/
theorem Valid.termType_of_notMem_mentions (hg : g.Valid) (hr : g.deriveTypes = .ok h)
    (hx : x ∉ mentions g.rankPairs) {u : Term} (hu : h.term? x = some u) :
    ∃ i t, g.terms.get? i = some t ∧ u.termType = t.termType := by
  have hretyped := retyped_of_deriveTypes hr
  obtain ⟨i, hxi, hui⟩ := Option.bind_eq_some_iff.1 hu
  rw [hretyped.index] at hxi
  obtain ⟨t, ht⟩ := hg.index.holds hxi
  refine ⟨i, t, ht, ?_⟩
  obtain ⟨v, hv, htyped⟩ := hretyped.terms i t ht
  obtain rfl : u = v := Option.some.inj (hui.symm.trans hv)
  rcases htyped with ⟨ms, hms, hi, -⟩ | ⟨-, htype⟩
  · -- A slot of a hierarchy is mentioned, and then so is its label.
    have him := (isHierarchyOf hms hi).1
    exact absurd (hg.mem_mentions_rankPairs.2 ⟨i, him, hg.labelAt_of_index hxi⟩) hx
  · exact htype

/-- A derivation keeps the arcs. -/
theorem Valid.arcList_deriveTypes (hg : g.Valid) (hr : g.deriveTypes = .ok h) :
    h.arcList = g.arcList := by
  have hretyped := retyped_of_deriveTypes hr
  have hgrows : Grows g h := by
    refine ⟨fun label slot hs => ?_, fun s t hk => ?_⟩
    · rwa [hretyped.index]
    · rwa [link?, hretyped.links]
  exact hgrows.arcList_eq hg (hg.deriveTypes hr) hretyped.links

/-! ## Terms without a type -/

/-- No term has a type. -/
def Untyped (g : Arena) : Prop :=
  ∀ i t, g.terms.get? i = some t → t.termType = none

theorem Untyped.ensure (hg : g.Untyped) (label : String) : (g.ensure label).Untyped := by
  unfold Arena.ensure ensureSlot
  split
  · exact hg
  · intro i t ht
    rw [addTerm, Slots.get?_insert] at ht
    split at ht
    · rw [← Option.some.inj ht]
      rfl
    · exact hg i t ht

theorem untyped_ofTable (rows : List Row) : (ofTable rows).Untyped := by
  induction rows using List.reverseRecOn with
  | nil => nofun
  | append_singleton rows r ih =>
    intro i t ht
    rw [ofTable_append_singleton, relate, putLink_terms] at ht
    exact (ih.ensure r.parent).ensure r.child i t ht

end Arena

namespace TermGraph

variable {rows : List Row} {g : TermGraph} {members : List String}

theorem deriveTypes_of_ok (hr : ofRows rows = .ok g) :
    (Arena.ofTable rows).deriveTypes = .ok g.toArena := by
  unfold ofRows at hr
  split at hr
  · next h =>
    obtain rfl := Except.ok.inj hr
    exact h
  · cases hr

theorem deriveTypes_of_error (hr : ofRows rows = .error members) :
    (Arena.ofTable rows).deriveTypes = .error members := by
  unfold ofRows at hr
  split at hr
  · cases hr
  · next h =>
    obtain rfl := Except.error.inj hr
    exact h

theorem exists_ok_of_isSome (h : (ofRows rows).toOption.isSome) : ∃ g, ofRows rows = .ok g := by
  cases hr : ofRows rows with
  | ok g => exact ⟨g, rfl⟩
  | error members =>
    rw [hr] at h
    cases h

theorem exists_error_of_isNone (h : (ofRows rows).toOption.isNone) :
    ∃ members, ofRows rows = .error members := by
  cases hr : ofRows rows with
  | ok g =>
    rw [hr] at h
    cases h
  | error members => exact ⟨members, rfl⟩

/-- The rank arcs of a table are the pairs whose last rows are rank rows. -/
theorem rankPairs_of_ok (hr : ofRows rows = .ok g) : g.rankPairs = Table.rankPairs rows := by
  have harcs := (Arena.valid_ofTable rows).arcList_deriveTypes (deriveTypes_of_ok hr)
  rw [Arena.rankPairs, harcs, ← Arena.rankPairs, Arena.rankPairs_ofTable]

theorem ofRows_error_names (hr : ofRows rows = .error members) :
    ∃ x, Rootless (Table.rankPairs rows) x ∧ IsHierarchyOf (Table.rankPairs rows) members x := by
  rw [← Arena.rankPairs_ofTable]
  exact (Arena.valid_ofTable rows).deriveTypes_error (deriveTypes_of_error hr)

/-- A table is refused exactly if one of its rank hierarchies has no top. -/
theorem ofRows_refuses_iff :
    (∃ members, ofRows rows = .error members) ↔ ∃ x, Rootless (Table.rankPairs rows) x := by
  constructor
  · rintro ⟨members, hr⟩
    obtain ⟨x, hx, -⟩ := ofRows_error_names hr
    exact ⟨x, hx⟩
  · rintro ⟨x, hx⟩
    cases hr : ofRows rows with
    | error members => exact ⟨members, rfl⟩
    | ok g =>
      rw [← Arena.rankPairs_ofTable] at hx
      exact absurd hx ((Arena.valid_ofTable rows).not_rootless (deriveTypes_of_ok hr) x)

theorem ofRows_accepts_iff :
    (∃ g, ofRows rows = .ok g) ↔ ∀ x, ¬ Rootless (Table.rankPairs rows) x := by
  rw [← not_exists, ← ofRows_refuses_iff]
  cases ofRows rows with
  | error members => exact iff_of_false nofun fun h => h ⟨members, rfl⟩
  | ok g => exact iff_of_true ⟨g, rfl⟩ nofun

/-- **A table is refused exactly if one of its rank hierarchies has no top, and the error names the
members of such a hierarchy. Else every term of a hierarchy gets the root of the hierarchy as its
type, and the other terms get none.** -/
theorem ofRows_types_hierarchies (rows : List Row) :
    ((∃ members, ofRows rows = .error members) ↔ ∃ x, Rootless (Table.rankPairs rows) x) ∧
    (∀ members, ofRows rows = .error members → ∃ x, Rootless (Table.rankPairs rows) x ∧
      IsHierarchyOf (Table.rankPairs rows) members x) ∧
    ∀ g, ofRows rows = .ok g → g.rankPairs = Table.rankPairs rows ∧
      (∀ x ∈ mentions (Table.rankPairs rows), ∃ root, IsRootOf (Table.rankPairs rows) root x ∧
        ∃ t, g.term? x = some t ∧ t.termType = some root) ∧
      ∀ x ∉ mentions (Table.rankPairs rows), ∀ t, g.term? x = some t → t.termType = none := by
  refine ⟨ofRows_refuses_iff, fun members => ofRows_error_names, fun g hr =>
    ⟨rankPairs_of_ok hr, ?_⟩⟩
  have hg := Arena.valid_ofTable rows
  rw [← Arena.rankPairs_ofTable]
  refine ⟨fun x hx => hg.termType_of_mem_mentions (deriveTypes_of_ok hr) hx, fun x hx t ht => ?_⟩
  obtain ⟨i, u, hu, htype⟩ := hg.termType_of_notMem_mentions (deriveTypes_of_ok hr) hx ht
  rw [htype, Arena.untyped_ofTable rows i u hu]

/-- A motor and a device above each other, of which one row is overwritten later: the table without
that row is refused, and with it the hierarchy has a root, between rows of another kind. -/
theorem ofRows_types_hierarchies_overwritten :
    let rows : List Row := [⟨"Motor", "Device", "is", true⟩, ⟨"motor_", "speed_", "has", false⟩,
      ⟨"Device", "Motor", "is", true⟩, ⟨"Motor", "motor_", "type", true⟩,
      ⟨"Quantity", "speed_", "type", true⟩]
    let later : Row := ⟨"Motor", "Device", "part", false⟩
    (∃ x, Rootless (Table.rankPairs rows) x) ∧
      ∃ g, ofRows (rows ++ [later]) = .ok g ∧
        mentions (Table.rankPairs (rows ++ [later])) =
          ["Device", "Motor", "motor_", "Quantity", "speed_"] ∧
        g.rankPairs = Table.rankPairs (rows ++ [later]) ∧
        ∃ root, IsRootOf (Table.rankPairs (rows ++ [later])) root "motor_" ∧
          ∃ t, g.term? "motor_" = some t ∧ t.termType = some root := by
  intro rows later
  have hrefused : ∃ members, ofRows rows = .error members :=
    exists_error_of_isNone (by decide +kernel)
  obtain ⟨g, hr⟩ : ∃ g, ofRows (rows ++ [later]) = .ok g :=
    exists_ok_of_isSome (by decide +kernel)
  have hmentions : mentions (Table.rankPairs (rows ++ [later])) =
      ["Device", "Motor", "motor_", "Quantity", "speed_"] := by decide +kernel
  obtain ⟨hpairs, htypes, -⟩ := (ofRows_types_hierarchies (rows ++ [later])).2.2 g hr
  exact ⟨(ofRows_types_hierarchies rows).1.1 hrefused, g, hr, hmentions, hpairs,
    htypes "motor_" (by rw [hmentions]; decide)⟩

/-! ## Cycles -/

/-- In the graph of a table, rank arcs lead from a term to another as the rank rows do. -/
theorem rankLeads_of_ok (hr : ofRows rows = .ok g) :
    g.RankLeads = Above (Table.rankPairs rows) := by
  rw [← rankPairs_of_ok hr, Above, Arena.RankLeads]
  congr 1
  funext x y
  exact propext (Arena.mem_rankPairs g.valid).symm

/--
**A table is accepted exactly if every cycle of rank arcs belongs to a hierarchy with a top.**

So a table without such cycles is accepted, but a cycle below a top is not refused. The rank arcs
are those of the graph that the table gives. Where no term has two others directly above it, a
cycle has no top above it, and then a table is accepted exactly if it has no cycles.
-/
theorem ofRows_accepts_iff_cycles_rooted (rows : List Row) :
    ((∃ g, ofRows rows = .ok g) ↔ ∀ x, Above (Table.rankPairs rows) x x →
      ∃ root, Joined (Table.rankPairs rows) x root ∧ IsTopmost (Table.rankPairs rows) root) ∧
    (∀ g, ofRows rows = .ok g → g.RankLeads = Above (Table.rankPairs rows)) ∧
    ((∀ a b c, Heads (Table.rankPairs rows) a c → Heads (Table.rankPairs rows) b c → a = b) →
      ((∃ g, ofRows rows = .ok g) ↔ ∀ x, ¬ Above (Table.rankPairs rows) x x)) := by
  have haccepts : (∃ g, ofRows rows = .ok g) ↔ ∀ x, Above (Table.rankPairs rows) x x →
      ∃ root, Joined (Table.rankPairs rows) x root ∧ IsTopmost (Table.rankPairs rows) root :=
    ofRows_accepts_iff.trans forall_not_rootless_iff
  exact ⟨haccepts, fun _ => rankLeads_of_ok, fun honce =>
    haccepts.trans (forall_cycle_rooted_iff honce)⟩

/-- A circle of two terms below a third one is accepted, and the circle is in the graph; the circle
alone is refused. -/
theorem ofRows_accepts_iff_cycles_rooted_below :
    let rows : List Row := [⟨"R", "A", "is", true⟩, ⟨"A", "B", "is", true⟩, ⟨"B", "A", "is", true⟩]
    (∃ g, ofRows rows = .ok g ∧ g.RankLeads "A" "A") ∧
      (∃ root, Joined (Table.rankPairs rows) "A" root ∧ IsTopmost (Table.rankPairs rows) root) ∧
      ¬ ∃ g, ofRows rows.tail = .ok g := by
  intro rows
  have hpairs : Table.rankPairs rows.tail = [("A", "B"), ("B", "A")] := by decide +kernel
  have hcycle : ∀ pairs : List (String × String), ("A", "B") ∈ pairs → ("B", "A") ∈ pairs →
      Above pairs "A" "A" := fun _ hab hba => .tail (.single hab) hba
  have honce : ∀ a b c, Heads (Table.rankPairs rows.tail) a c →
      Heads (Table.rankPairs rows.tail) b c → a = b := by
    rw [hpairs]
    simp only [Heads, List.mem_cons, Prod.mk.injEq, List.not_mem_nil, or_false]
    rintro a b c (⟨rfl, rfl⟩ | ⟨rfl, rfl⟩) (⟨rfl, h⟩ | ⟨rfl, h⟩)
    all_goals first | rfl | exact absurd h (by decide)
  obtain ⟨g, hr⟩ : ∃ g, ofRows rows = .ok g := exists_ok_of_isSome (by decide +kernel)
  have hcircle : Above (Table.rankPairs rows) "A" "A" :=
    hcycle _ (by decide +kernel) (by decide +kernel)
  obtain ⟨hrooted, hleads, -⟩ := ofRows_accepts_iff_cycles_rooted rows
  refine ⟨⟨g, hr, ?_⟩, hrooted.1 ⟨g, hr⟩ "A" hcircle, fun hok => ?_⟩
  · rwa [hleads g hr]
  · refine ((ofRows_accepts_iff_cycles_rooted rows.tail).2.2 honce).1 hok "A" ?_
    exact hcycle _ (by decide +kernel) (by decide +kernel)

end TermGraph

end Ontogram
