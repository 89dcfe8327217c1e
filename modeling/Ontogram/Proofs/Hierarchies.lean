import Mathlib.Data.Fintype.Card
import Mathlib.Data.Set.Finite.Basic
import Mathlib.Logic.Relation
import Mathlib.Order.WellFounded
import Ontogram.Proofs.FirstMentions

/-!
# Hierarchies

Pairs of items, of which the first stands directly above the second, fall into hierarchies: what the
pairs connect, in whichever direction, is one hierarchy. A top is an item that nothing stands above,
and the root of a hierarchy is its first top.

A hierarchy without a top has a cycle. The converse fails, since a cycle may hang below a top, but
it holds where nothing stands directly below two items.

* `Rootless.exists_cycle` — a hierarchy without a top has a cycle.
* `Joined.below_of_cycle` — where nothing stands below two items, a cycle is above the rest.
* `rootless_map`, `IsHierarchyOf.map`, `IsRootOf.map` — hierarchies keep their shape under other
  names.
-/

namespace Ontogram.Hierarchy

variable {α β : Type} {pairs : List (α × α)} {x y root : α} {members : List α}

/-! ## Pairs -/

/-- The first item stands directly above the second. -/
def Heads (pairs : List (α × α)) (x y : α) : Prop :=
  (x, y) ∈ pairs

/-- A way of one or more pairs leads down from the first item to the second. -/
def Above (pairs : List (α × α)) : α → α → Prop :=
  Relation.TransGen (Heads pairs)

/-- The pairs connect two items. -/
def Joined (pairs : List (α × α)) : α → α → Prop :=
  Relation.EqvGen (Heads pairs)

/-- Nothing stands above the item. -/
def IsTopmost (pairs : List (α × α)) (x : α) : Prop :=
  ∀ y, ¬ Heads pairs y x

/-- Steps along the pairs, in whichever direction, find every item of a hierarchy. -/
theorem joined_eq_reflTransGen :
    Joined pairs = Relation.ReflTransGen fun x y => Heads pairs x y ∨ Heads pairs y x :=
  (Relation.EqvGen.reflTransGen_symmGen _).symm

/-- **Where nothing stands directly below two items, a cycle stands above the rest of its
hierarchy.** -/
theorem Joined.below_of_cycle (honce : ∀ a b c, Heads pairs a c → Heads pairs b c → a = b)
    (hcycle : Above pairs x x) (h : Joined pairs x y) : Above pairs x y := by
  rw [joined_eq_reflTransGen] at h
  induction h with
  | refl => exact hcycle
  | tail _ hstep ih =>
    rcases hstep with hstep | hstep
    · exact ih.tail hstep
    · -- A step back is the last one of the way, since the item has no other above it.
      obtain ⟨a, hxa, ha⟩ := Relation.TransGen.tail'_iff.1 ih
      obtain rfl := honce _ _ _ hstep ha
      rcases Relation.reflTransGen_iff_eq_or_transGen.1 hxa with rfl | hxa
      · exact hcycle
      · exact hxa

/-- Where nothing stands directly below two items, no hierarchy with a cycle has a top. -/
theorem forall_cycle_rooted_iff (honce : ∀ a b c, Heads pairs a c → Heads pairs b c → a = b) :
    (∀ x, Above pairs x x → ∃ root, Joined pairs x root ∧ IsTopmost pairs root) ↔
      ∀ x, ¬ Above pairs x x := by
  refine ⟨fun hrooted x hcycle => ?_, fun hno x hcycle => absurd hcycle (hno x)⟩
  obtain ⟨root, hroot, htop⟩ := hrooted x hcycle
  obtain ⟨y, -, hy⟩ := Relation.TransGen.tail'_iff.1 (hroot.below_of_cycle honce hcycle)
  exact htop y hy

/-! ## Members -/

variable [DecidableEq α]

/-- The items of the pairs in the order of their first mention. -/
def mentions (pairs : List (α × α)) : List α :=
  (pairs.flatMap fun p => [p.1, p.2]).eraseDups

/-- The members are the items of the hierarchy of `x`, in the order of their first mention. -/
def IsHierarchyOf (pairs : List (α × α)) (members : List α) (x : α) : Prop :=
  members.Sublist (mentions pairs) ∧ ∀ y, y ∈ members ↔ Joined pairs x y

/-- The hierarchy of `x` has no top. -/
def Rootless (pairs : List (α × α)) (x : α) : Prop :=
  x ∈ mentions pairs ∧ ∀ y, Joined pairs x y → ¬ IsTopmost pairs y

/-- `root` is the first top of the hierarchy of `x`: it is mentioned before every other one. -/
def IsRootOf (pairs : List (α × α)) (root x : α) : Prop :=
  Joined pairs x root ∧ IsTopmost pairs root ∧
    ∀ y, Joined pairs x y → IsTopmost pairs y → y = root ∨ [root, y].Sublist (mentions pairs)

theorem mem_mentions : x ∈ mentions pairs ↔ ∃ y, Heads pairs x y ∨ Heads pairs y x := by
  simp only [mentions, List.mem_eraseDups, List.mem_flatMap, List.mem_cons, List.not_mem_nil,
    or_false, Heads]
  constructor
  · rintro ⟨p, hp, rfl | rfl⟩
    · exact ⟨p.2, Or.inl hp⟩
    · exact ⟨p.1, Or.inr hp⟩
  · rintro ⟨y, h | h⟩
    · exact ⟨_, h, Or.inl rfl⟩
    · exact ⟨_, h, Or.inr rfl⟩

theorem Heads.mem_left (h : Heads pairs x y) : x ∈ mentions pairs :=
  mem_mentions.2 ⟨y, Or.inl h⟩

theorem Heads.mem_right (h : Heads pairs x y) : y ∈ mentions pairs :=
  mem_mentions.2 ⟨x, Or.inr h⟩

theorem Above.mem_mentions (h : Above pairs x y) : x ∈ mentions pairs := by
  obtain ⟨z, hxz, -⟩ := Relation.TransGen.head'_iff.1 h
  exact Heads.mem_left hxz

theorem Joined.mem_mentions_iff (h : Joined pairs x y) :
    x ∈ mentions pairs ↔ y ∈ mentions pairs := by
  induction h with
  | rel x y h => exact iff_of_true (Heads.mem_left h) (Heads.mem_right h)
  | refl => rfl
  | symm _ _ _ ih => exact ih.symm
  | trans _ _ _ _ _ ih₁ ih₂ => exact ih₁.trans ih₂

/-- The first top among the members of a hierarchy is its root. -/
theorem IsHierarchyOf.isRootOf (h : IsHierarchyOf pairs members x) {p : α → Bool}
    (hp : ∀ y, p y = true ↔ IsTopmost pairs y) (hroot : members.find? p = some root) :
    IsRootOf pairs root x := by
  obtain ⟨htop, before, after, rfl, hbefore⟩ := List.find?_eq_some_iff_append.1 hroot
  refine ⟨(h.2 root).1 ?_, (hp root).1 htop, fun y hy hytop => ?_⟩
  · exact List.mem_append_right _ List.mem_cons_self
  · rcases List.mem_append.1 ((h.2 y).2 hy) with hm | hm
    · have hno := hbefore y hm
      rw [(hp y).2 hytop] at hno
      cases hno
    · refine (List.mem_cons.1 hm).imp_right fun hm => List.Sublist.trans ?_ h.1
      exact ((List.singleton_sublist.2 hm).cons_cons root).trans (List.sublist_append_right _ _)

theorem finite_joined (hx : x ∈ mentions pairs) : {y | Joined pairs x y}.Finite :=
  (List.finite_toSet (mentions pairs)).subset fun _ hy => (Joined.mem_mentions_iff hy).1 hx

/-- **A hierarchy without a top has a cycle.** -/
theorem Rootless.exists_cycle (h : Rootless pairs x) :
    ∃ y, Joined pairs x y ∧ Above pairs y y := by
  obtain ⟨hx, htop⟩ := h
  by_contra hno
  -- Without a cycle, to stand above is well-founded on the hierarchy, and a minimal item is a top.
  have hfinite : Finite {y // Joined pairs x y} := (finite_joined hx).to_subtype
  have htrans : IsTrans {y // Joined pairs x y} fun a b => Above pairs a b :=
    ⟨fun _ _ _ => Relation.TransGen.trans⟩
  have hirrefl : Std.Irrefl fun a b : {y // Joined pairs x y} => Above pairs a b :=
    ⟨fun a ha => hno ⟨a, a.2, ha⟩⟩
  have hwf := Finite.wellFounded_of_trans_of_irrefl fun a b : {y // Joined pairs x y} =>
    Above pairs a b
  obtain ⟨top, -, hmin⟩ := hwf.has_min Set.univ ⟨⟨x, .refl x⟩, trivial⟩
  refine htop top top.2 fun y hy => ?_
  have hjoined : Joined pairs x y := top.2.trans _ _ _ (.symm _ _ (.rel _ _ hy))
  exact hmin ⟨y, hjoined⟩ trivial (.single hy)

/-- **Every hierarchy has a top exactly if those with a cycle have one.** -/
theorem forall_not_rootless_iff : (∀ x, ¬ Rootless pairs x) ↔
    ∀ x, Above pairs x x → ∃ root, Joined pairs x root ∧ IsTopmost pairs root := by
  constructor
  · intro hno x hcycle
    by_contra htop
    exact hno x ⟨hcycle.mem_mentions, fun y hy hytop => htop ⟨y, hy, hytop⟩⟩
  · intro hrooted x hx
    obtain ⟨y, hxy, hcycle⟩ := hx.exists_cycle
    obtain ⟨root, hyroot, htop⟩ := hrooted y hcycle
    exact hx.2 root (hxy.trans _ _ _ hyroot) htop

/-! ## Other names -/

section Map

variable {f : α → β}

omit [DecidableEq α] in
theorem heads_map {u v : β} :
    Heads (pairs.map (Prod.map f f)) u v ↔ ∃ x y, Heads pairs x y ∧ f x = u ∧ f y = v := by
  simp [Heads]

omit [DecidableEq α] in
theorem Joined.map (h : Joined pairs x y) : Joined (pairs.map (Prod.map f f)) (f x) (f y) := by
  induction h with
  | rel x y h => exact .rel _ _ (heads_map.2 ⟨x, y, h, rfl, rfl⟩)
  | refl => exact .refl _
  | symm _ _ _ ih => exact ih.symm
  | trans _ _ _ _ _ ih₁ ih₂ => exact ih₁.trans _ _ _ ih₂

variable (hf : ∀ x ∈ mentions pairs, ∀ y ∈ mentions pairs, f x = f y → x = y)

include hf

/-- What is joined to an item under its other name is another name of an item joined to it. -/
theorem Joined.exists_of_map (hx : x ∈ mentions pairs) {v : β}
    (h : Joined (pairs.map (Prod.map f f)) (f x) v) : ∃ y, Joined pairs x y ∧ f y = v := by
  rw [joined_eq_reflTransGen] at h
  induction h with
  | refl => exact ⟨x, .refl x, rfl⟩
  | tail _ hstep ih =>
    obtain ⟨y, hxy, rfl⟩ := ih
    have hy := hxy.mem_mentions_iff.1 hx
    -- The pair that is stepped along comes from one at `y`, because `f` keeps the items apart.
    rcases hstep with hstep | hstep
    · obtain ⟨a, b, hab, ha, rfl⟩ := heads_map.1 hstep
      obtain rfl := hf a hab.mem_left y hy ha
      exact ⟨b, hxy.trans _ _ _ (.rel _ _ hab), rfl⟩
    · obtain ⟨b, a, hba, rfl, ha⟩ := heads_map.1 hstep
      obtain rfl := hf a hba.mem_right y hy ha
      exact ⟨b, hxy.trans _ _ _ (.symm _ _ (.rel _ _ hba)), rfl⟩

theorem isTopmost_map (hx : x ∈ mentions pairs) :
    IsTopmost (pairs.map (Prod.map f f)) (f x) ↔ IsTopmost pairs x := by
  constructor
  · exact fun h y hy => h (f y) (heads_map.2 ⟨y, x, hy, rfl, rfl⟩)
  · intro h v hv
    obtain ⟨y, z, hyz, -, hz⟩ := heads_map.1 hv
    obtain rfl := hf z hyz.mem_right x hx hz
    exact h y hyz

variable [DecidableEq β]

theorem mentions_map : mentions (pairs.map (Prod.map f f)) = (mentions pairs).map f := by
  have hflat : ((pairs.map (Prod.map f f)).flatMap fun p => [p.1, p.2]) =
      (pairs.flatMap fun p => [p.1, p.2]).map f := by
    rw [List.flatMap_map, List.map_flatMap]
    rfl
  rw [mentions, hflat]
  refine map_eraseDups fun x hx y hy => hf x ?_ y ?_
  · exact List.mem_eraseDups.2 hx
  · exact List.mem_eraseDups.2 hy

theorem rootless_map (hx : x ∈ mentions pairs) :
    Rootless (pairs.map (Prod.map f f)) (f x) ↔ Rootless pairs x := by
  constructor
  · rintro ⟨-, h⟩
    refine ⟨hx, fun y hy htop => h (f y) hy.map ?_⟩
    exact (isTopmost_map hf (hy.mem_mentions_iff.1 hx)).2 htop
  · rintro ⟨-, h⟩
    refine ⟨?_, fun v hv htop => ?_⟩
    · rw [mentions_map hf]
      exact List.mem_map_of_mem hx
    · obtain ⟨y, hy, rfl⟩ := hv.exists_of_map hf hx
      exact h y hy ((isTopmost_map hf (hy.mem_mentions_iff.1 hx)).1 htop)

theorem IsHierarchyOf.map (hx : x ∈ mentions pairs) (h : IsHierarchyOf pairs members x) :
    IsHierarchyOf (pairs.map (Prod.map f f)) (members.map f) (f x) := by
  obtain ⟨hsub, hmem⟩ := h
  refine ⟨?_, fun v => ⟨fun hv => ?_, fun hv => ?_⟩⟩
  · rw [mentions_map hf]
    exact hsub.map f
  · obtain ⟨y, hy, rfl⟩ := List.mem_map.1 hv
    exact ((hmem y).1 hy).map
  · obtain ⟨y, hy, rfl⟩ := hv.exists_of_map hf hx
    exact List.mem_map_of_mem ((hmem y).2 hy)

theorem IsRootOf.map (hx : x ∈ mentions pairs) (h : IsRootOf pairs root x) :
    IsRootOf (pairs.map (Prod.map f f)) (f root) (f x) := by
  obtain ⟨hjoined, htop, hfirst⟩ := h
  refine ⟨hjoined.map, (isTopmost_map hf (hjoined.mem_mentions_iff.1 hx)).2 htop,
    fun v hv hvtop => ?_⟩
  obtain ⟨y, hy, rfl⟩ := hv.exists_of_map hf hx
  rw [mentions_map hf]
  have hytop := (isTopmost_map hf (hy.mem_mentions_iff.1 hx)).1 hvtop
  exact (hfirst y hy hytop).imp (congrArg f) fun hsub => hsub.map f

end Map

end Ontogram.Hierarchy
