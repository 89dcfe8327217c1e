import Mathlib.Logic.Relation
import Ontogram.Proofs.Diagram.Kin

/-!
# When bound instances form a forest

An instance is bound into one parent at most, and keeps it. A bind asks that the child has no parent
and that its graph has a path from the parent's self term to its instance term. Nothing in this
keeps an instance from being bound into one that stands below it, for what was bound into it may
have brought the path along. That is the only way to a cycle of parents.

* `hasParent_bind_iff` — a bind that succeeds adds one link, from the child to the parent.
* `isForest_bind_iff` — which binds keep a forest.
* `isForest_bindAll_iff` — which runs of binds do.
-/

namespace Ontogram.Workshop

variable {w : Workshop} {parentId childId x y : String}

/-! ## Parents -/

/-- The parent of one instance has the name of another. -/
def HasParent (w : Workshop) (x y : String) : Prop :=
  ∃ n, w.parent? x = some n ∧ w.name? y = some n

/-- One instance leads to another from parent to parent. -/
def Below (w : Workshop) : String → String → Prop :=
  Relation.TransGen w.HasParent

/-- No instance comes back to itself from parent to parent. -/
def IsForest (w : Workshop) : Prop :=
  ∀ x, ¬w.Below x x

/-- Binds instances in turn, whatever becomes of each bind. -/
def bindAll (w : Workshop) (calls : List (String × String)) : Workshop :=
  calls.foldl (fun w call => (w.bind call.1 call.2).1) w

/-- Where none was bound, none stands below another. -/
theorem not_below_of_unbound (h : ∀ x, w.parent? x = none) (x y : String) : ¬w.Below x y := by
  intro hx
  obtain ⟨y, ⟨n, hn, -⟩, -⟩ := Relation.TransGen.head'_iff.1 hx
  cases (h x).symm.trans hn

/-- What a relation with one more pair leads to goes through that pair once at most. -/
theorem transGen_or_of_added {α : Type} {r s : α → α → Prop} {u v a b : α}
    (hs : ∀ a b, s a b → r a b ∨ a = u ∧ b = v) (h : Relation.TransGen s a b) :
    Relation.TransGen r a b ∨ Relation.ReflTransGen r a u ∧ Relation.ReflTransGen r v b := by
  induction h with
  | single hab =>
    rcases hs _ _ hab with hr | ⟨rfl, rfl⟩
    · exact Or.inl (.single hr)
    · exact Or.inr ⟨.refl, .refl⟩
  | tail _ hbc ih =>
    rcases hs _ _ hbc with hr | ⟨rfl, rfl⟩
    · exact ih.imp (fun h => h.tail hr) fun h => ⟨h.1, h.2.tail hr⟩
    · exact Or.inr ⟨ih.elim Relation.TransGen.to_reflTransGen And.left, .refl⟩

/-! ## One bind -/

/-- No bind changes a name. -/
theorem name?_bind (w : Workshop) (parentId childId x : String) :
    (w.bind parentId childId).1.name? x = w.name? x := by
  cases h : (w.bind parentId childId).2 with
  | some error => rw [name?_eq, name?_eq, kin?_bind_of_error h]
  | none => exact (bonds_bind h).name?_eq x

theorem NamesDistinct.bind (h : w.NamesDistinct) (parentId childId : String) :
    (w.bind parentId childId).1.NamesDistinct := by
  intro x y n hx hy
  rw [name?_bind] at hx hy
  exact h x y n hx hy

/-- A bind that fails adds no link. -/
theorem hasParent_bind_of_error {error : CompileError}
    (h : (w.bind parentId childId).2 = some error) :
    (w.bind parentId childId).1.HasParent = w.HasParent := by
  funext x y
  unfold HasParent parent?
  rw [kin?_bind_of_error h, name?_bind]

/-- **A bind that succeeds adds one link.** -/
theorem hasParent_bind_iff (hd : w.NamesDistinct) (h : (w.bind parentId childId).2 = none) :
    (w.bind parentId childId).1.HasParent x y ↔
      w.HasParent x y ∨ x = childId ∧ y = parentId := by
  obtain ⟨horphan, n, hn, hparent⟩ := (bonds_bind h).parent?_eq
  unfold HasParent
  simp only [hparent, name?_bind]
  by_cases hx : x = childId
  · subst hx
    rw [if_pos rfl, horphan]
    constructor
    · rintro ⟨m, hm, hy⟩
      cases hm
      exact Or.inr ⟨rfl, hd y parentId n hy hn⟩
    · rintro (⟨m, hm, -⟩ | ⟨-, rfl⟩)
      · cases hm
      · exact ⟨n, rfl, hn⟩
  · rw [if_neg hx]
    exact (or_iff_left fun h => hx h.1).symm

/-- **Which binds keep a forest.** A bind closes a cycle if and only if it succeeds and the parent
stands below the child. -/
theorem isForest_bind_iff (hd : w.NamesDistinct) (parentId childId : String) :
    (w.bind parentId childId).1.IsForest ↔
      w.IsForest ∧ ((w.bind parentId childId).2 = none → ¬w.Below parentId childId) := by
  cases h : (w.bind parentId childId).2 with
  | some error =>
    unfold IsForest Below
    rw [hasParent_bind_of_error h]
    exact (and_iff_left nofun).symm
  | none =>
    have hlink := fun x y => hasParent_bind_iff (x := x) (y := y) hd h
    have hold : ∀ x y, w.Below x y → (w.bind parentId childId).1.Below x y :=
      Relation.TransGen.mono fun x y hl => (hlink x y).2 (Or.inl hl)
    constructor
    · intro hf
      refine ⟨fun x hx => hf x (hold x x hx), fun _ hbelow => hf parentId ?_⟩
      exact (hold _ _ hbelow).tail ((hlink _ _).2 (Or.inr ⟨rfl, rfl⟩))
    · rintro ⟨hf, hbelow⟩ x hx
      rcases transGen_or_of_added (fun a b => (hlink a b).1) hx with hx | ⟨hchild, hparent⟩
      · exact hf x hx
      · rcases Relation.reflTransGen_iff_eq_or_transGen.1 (hparent.trans hchild) with heq | hlt
        · exact (bonds_bind h).ne heq.symm
        · exact hbelow rfl hlt

/-! ## Binds in turn -/

/-- **Which runs of binds keep a forest.** Instances with distinct names, bound into one another in
turn, form a forest if and only if they did before, and no bind that succeeds puts an instance into
one that stands below it. -/
theorem isForest_bindAll_iff (hd : w.NamesDistinct) (calls : List (String × String)) :
    (w.bindAll calls).IsForest ↔ w.IsForest ∧
      ∀ before parentId childId after, calls = before ++ (parentId, childId) :: after →
        ((w.bindAll before).bind parentId childId).2 = none →
        ¬(w.bindAll before).Below parentId childId := by
  induction calls generalizing w with
  | nil =>
    refine (and_iff_left fun before _ _ after h => ?_).symm
    exact absurd h.symm (List.append_ne_nil_of_right_ne_nil before (List.cons_ne_nil _ after))
  | cons call calls ih =>
    have hrest := ih (hd.bind call.1 call.2)
    rw [isForest_bind_iff hd] at hrest
    refine hrest.trans ⟨?_, ?_⟩
    · rintro ⟨⟨hf, hfirst⟩, hlater⟩
      refine ⟨hf, fun before parentId childId after h => ?_⟩
      cases before with
      | nil =>
        cases h
        exact hfirst
      | cons first before =>
        obtain ⟨rfl, htail⟩ := List.cons.inj h
        exact hlater before parentId childId after htail
    · rintro ⟨hf, hall⟩
      refine ⟨⟨hf, hall [] call.1 call.2 calls rfl⟩, fun before parentId childId after h => ?_⟩
      exact hall (call :: before) parentId childId after (congrArg (call :: ·) h)

/-- An instance of a variable with that name above it can be bound into the other one, and then the
other one into it: each is the parent of the other. -/
theorem isForest_bindAll_twined :
    let upper := TermGraph.empty.relate ⟨"b_", "a_", ⟨"part", false⟩⟩
    let lower := TermGraph.empty.relate ⟨"a_", "b_", ⟨"part", false⟩⟩
    ∃ a b, Instance.ofGraph "A" "P" "a_" upper = .ok a ∧
      Instance.ofGraph "B" "Q" "b_" lower = .ok b ∧
      let w : Workshop := ⟨[("a", a), ("b", b)], []⟩
      w.NamesDistinct ∧ (w.bindAll [("a", "b")]).IsForest ∧
        ¬(w.bindAll [("a", "b"), ("b", "a")]).IsForest := by
  intro upper lower
  have hrun : (Instance.ofGraph "A" "P" "a_" upper).toOption.any fun a =>
      (Instance.ofGraph "B" "Q" "b_" lower).toOption.any fun b =>
        let w : Workshop := ⟨[("a", a), ("b", b)], []⟩
        decide (a.kin = ⟨"A", none, []⟩ ∧ b.kin = ⟨"B", none, []⟩ ∧
          (w.bind "a" "b").2 = none ∧ ((w.bind "a" "b").1.bind "b" "a").2 = none) := by
    decide +kernel
  obtain ⟨a, ha, hrun⟩ := exists_ok_of_any hrun
  obtain ⟨b, hb, hrun⟩ := exists_ok_of_any hrun
  obtain ⟨hka, hkb, hfirst, hsecond⟩ := of_decide_eq_true hrun
  refine ⟨a, b, ha, hb, ?_⟩
  intro w
  have hkin : ∀ x, w.kin? x =
      if x = "a" then some ⟨"A", none, []⟩ else if x = "b" then some ⟨"B", none, []⟩ else none := by
    intro x
    rw [← hka, ← hkb]
    by_cases hxa : x = "a"
    · rw [hxa]
      rfl
    · by_cases hxb : x = "b"
      · rw [hxb]
        rfl
      · simp [kin?, get?, w, hxa, hxb, Ne.symm hxa, Ne.symm hxb]
  have hd : w.NamesDistinct := by
    have hnames : w.instances.map (fun f => f.2.name) = ["A", "B"] :=
      congrArg₂ (fun a b : Kin => [a.name, b.name]) hka hkb
    refine namesDistinct_of_nodup ?_
    rw [hnames]
    decide
  have hnone : ∀ x y, ¬w.Below x y := not_below_of_unbound fun x => by
    rw [parent?, hkin]
    split
    · rfl
    · split <;> rfl
  refine ⟨hd, ?_, ?_⟩
  · refine (isForest_bindAll_iff hd _).2 ⟨fun x => hnone x x, fun before p c after h _ => ?_⟩
    obtain rfl : before = [] := by
      rcases List.singleton_eq_append_iff.1 h with ⟨hb, -⟩ | ⟨-, hcons⟩
      · exact hb
      · cases hcons
    exact hnone p c
  · intro h
    refine ((isForest_bindAll_iff hd _).1 h).2 [("a", "b")] "b" "a" [] rfl hsecond (.single ?_)
    exact (hasParent_bind_iff hd hfirst).2 (Or.inr ⟨rfl, rfl⟩)

end Ontogram.Workshop
