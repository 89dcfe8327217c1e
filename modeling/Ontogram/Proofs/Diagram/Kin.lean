import Ontogram.Proofs.Diagram.Skipping
import Ontogram.Proofs.Instance.Kin

/-!
# Parents and children through a run

Of all that a run does, only a bind that succeeds changes what an instance was bound into and what
was bound into it: the child gets its parent, and the parent notes the name of the child. No step
changes a name.

* `Workshop.unbound_create` — the instances that a diagram starts with.
* `Workshop.Bonds` — what a bind does to the relatives of all instances.
* `Workshop.bonds_bind`, `Workshop.kin?_bind_of_error` — the two outcomes of a bind.
* `Progress.bonds_execute`, `Progress.kin?_execute` — a bind that is executed, and every other
  operation.
-/

namespace Ontogram

namespace Workshop

variable {w : Workshop} {id parentId childId : String}

/-- The relatives of the instance of an element. -/
def kin? (w : Workshop) (id : String) : Option Kin :=
  (w.get? id).map Instance.kin

theorem name?_eq (w : Workshop) (id : String) : w.name? id = (w.kin? id).map Kin.name := by
  unfold name? kin?
  rw [Option.map_map]
  rfl

theorem kin?_put (w : Workshop) (id : String) (e : Instance) (x : String) :
    (w.put id e).kin? x = if x = id then (w.kin? x).map fun _ => e.kin else w.kin? x := by
  unfold kin?
  rw [get?_put]
  split
  · rw [Option.map_map, Option.map_map]
    rfl
  · rfl

/-- The name of the instance that the instance of an element was bound into, if there is one. -/
def parent? (w : Workshop) (id : String) : Option String :=
  (w.kin? id).bind Kin.parent

/-- The names of the instances that were bound into the instance of an element. -/
def children (w : Workshop) (id : String) : List String :=
  ((w.kin? id).map Kin.children).getD []

/-- No two instances have one name. -/
def NamesDistinct (w : Workshop) : Prop :=
  ∀ x y n, w.name? x = some n → w.name? y = some n → x = y

theorem namesDistinct_of_nodup (h : (w.instances.map fun f => f.2.name).Nodup) :
    w.NamesDistinct := by
  have hfound : ∀ x n, w.name? x = some n → ∃ f ∈ w.instances, f.1 = x ∧ f.2.name = n := by
    intro x n hx
    obtain ⟨e, he, rfl⟩ := Option.map_eq_some_iff.1 hx
    obtain ⟨f, hf, rfl⟩ := Option.map_eq_some_iff.1 he
    have hid := List.find?_some hf
    exact ⟨f, List.mem_of_find?_eq_some hf, eq_of_beq hid, rfl⟩
  intro x y n hx hy
  obtain ⟨f, hf, rfl, hfn⟩ := hfound x n hx
  obtain ⟨g, hg, rfl, hgn⟩ := hfound y n hy
  rw [List.inj_on_of_nodup_map h hf hg (hfn.trans hgn.symm)]

/-- An instance may be put where one with its relatives was. -/
theorem kin?_put_of_kin {e f : Instance} (h : w.get? id = some e) (hf : f.kin = e.kin)
    (x : String) :
    (w.put id f).kin? x = w.kin? x := by
  rw [kin?_put]
  split
  · next hx =>
    unfold kin?
    rw [hx, h, hf]
    rfl
  · rfl

/-- An operation on one instance keeps the relatives of all if it keeps those of the instance. -/
theorem kin?_change {f : Instance → Outcome Instance} (hf : ∀ e, (f e).state.kin = e.kin)
    (w : Workshop) (id x : String) : (w.change id f).1.kin? x = w.kin? x := by
  unfold change
  split
  · rfl
  · next e he => exact kin?_put_of_kin (get_eq_ok.1 he) (hf e) x

theorem kin_composeMissing (root : Instance) (name : String) (graph : TermGraph) :
    (composeMissing root name graph).kin = root.kin := by
  unfold composeMissing
  split <;> rfl

theorem kin?_stitch (w : Workshop) (rootId : String) (r : SecondaryRelation) (x : String) :
    (w.stitch rootId r).1.kin? x = w.kin? x := by
  unfold stitch
  split
  iterate 3 rfl
  next parent child root _ _ hr =>
  refine kin?_put_of_kin (get_eq_ok.1 hr) ?_ x
  exact (kin_composeMissing _ child.name child.graph).trans
    (kin_composeMissing root parent.name parent.graph)

/-- Instances that were bound into none and note none, and one that was just made. -/
theorem unbound_addElement (library : Library) (isComponent : String → Bool) (e : Element)
    (h : ∀ f ∈ w.instances, f.2.parent = none ∧ f.2.children = []) :
    ∀ f ∈ (addElement library isComponent w e).instances,
      f.2.parent = none ∧ f.2.children = [] := by
  intro f hf
  unfold addElement at hf
  split at hf
  · exact h f hf
  · split at hf
    · next i hi =>
      rcases List.mem_append.1 hf with hf | hf
      · exact h f hf
      · obtain rfl := List.mem_singleton.1 hf
        have hkin := Instance.kin_instantiate hi
        exact ⟨congrArg Kin.parent hkin, congrArg Kin.children hkin⟩
    · exact h f hf

/-- **The instances of a diagram start with neither parents nor children.** -/
theorem unbound_create (library : Library) (o : OperationGraph) (x : String) :
    (create library o).parent? x = none ∧ (create library o).children x = [] := by
  have hall : ∀ f ∈ (create library o).instances, f.2.parent = none ∧ f.2.children = [] :=
    List.foldlRecOn (motive := fun w : Workshop =>
      ∀ f ∈ w.instances, f.2.parent = none ∧ f.2.children = []) o.graph.elements _
      (fun _ h => absurd h List.not_mem_nil) fun _ h e _ => unbound_addElement library _ e h
  unfold parent? children kin? get?
  cases hf : (create library o).instances.find? (fun e => e.1 == x) with
  | none => exact ⟨rfl, rfl⟩
  | some f => exact hall f (List.mem_of_find?_eq_some hf)

/-! ## Binding -/

/-- An instance without parent was bound into another one: its parent is the name of that one, which
notes the name of the child. All others have the relatives they had. -/
def Bonds (parentId childId : String) (w w' : Workshop) : Prop :=
  ∃ p c, parentId ≠ childId ∧ w.kin? parentId = some p ∧ w.kin? childId = some c ∧
    c.parent = none ∧ ∀ x, w'.kin? x =
      if x = childId then some { c with parent := some p.name }
      else if x = parentId then
        some { p with children := Text.insertAscending c.name p.children }
      else w.kin? x

namespace Bonds

variable {w' : Workshop} {x n : String}

theorem ne (h : Bonds parentId childId w w') : parentId ≠ childId :=
  h.choose_spec.choose_spec.1

/-- A bond changes no name. -/
theorem name?_eq (h : Bonds parentId childId w w') (x : String) : w'.name? x = w.name? x := by
  obtain ⟨p, c, -, hp, hc, -, hkin⟩ := h
  rw [Workshop.name?_eq, Workshop.name?_eq, hkin]
  split
  · next hx => rw [hx, hc]; rfl
  · split
    · next hx => rw [hx, hp]; rfl
    · rfl

/-- The child has no parent before, and the parent's name after. No other parent changes. -/
theorem parent?_eq (h : Bonds parentId childId w w') :
    w.parent? childId = none ∧ ∃ n, w.name? parentId = some n ∧
      ∀ x, w'.parent? x = if x = childId then some n else w.parent? x := by
  obtain ⟨p, c, -, hp, hc, horphan, hkin⟩ := h
  refine ⟨by rw [parent?, hc, Option.bind_some, horphan], p.name, ?_, fun x => ?_⟩
  · rw [Workshop.name?_eq, hp]
    rfl
  · unfold parent?
    rw [hkin]
    split
    · rfl
    · split
      · next hx => rw [hx, hp]; rfl
      · rfl

/-- The parent notes the name of the child, and nothing else is noted. -/
theorem mem_children_iff (h : Bonds parentId childId w w') :
    n ∈ w'.children x ↔ n ∈ w.children x ∨ parentId = x ∧ w.name? childId = some n := by
  obtain ⟨p, c, hne, hp, hc, -, hkin⟩ := h
  have hname : w.name? childId = some c.name := by
    rw [Workshop.name?_eq, hc]
    rfl
  unfold children
  rw [hkin, hname]
  split
  · next hx => simp [hx, hc, hne]
  · split
    · next hx =>
      rw [hx, hp]
      simp [Text.mem_insertAscending, or_comm, eq_comm]
    · next hx => simp [Ne.symm hx]

end Bonds

/-- A bind that fails changes no relatives. -/
theorem kin?_bind_of_error {error : CompileError} (h : (w.bind parentId childId).2 = some error)
    (x : String) : (w.bind parentId childId).1.kin? x = w.kin? x := by
  unfold kin?
  rw [(agree_bind_of_error [x] h).get? x List.mem_cons_self]

/-- **A bind that succeeds bonds two instances.** -/
theorem bonds_bind (h : (w.bind parentId childId).2 = none) :
    Bonds parentId childId w (w.bind parentId childId).1 := by
  rcases w.bind_cases parentId childId with ⟨error, hb, -⟩ | ⟨parent, child, hne, hp, hc, hb⟩
  · rw [hb] at h
    cases h
  · rw [hb] at h ⊢
    obtain ⟨hparent, hstate, hstate'⟩ := Instance.kin_bind (Option.map_eq_none_iff.1 h)
    refine ⟨parent.kin, child.kin, hne, ?_, ?_, hparent, fun x => ?_⟩
    · rw [kin?, hp]
      rfl
    · rw [kin?, hc]
      rfl
    · simp only [kin?_put]
      split
      · next hx =>
        rw [hx, if_neg (Ne.symm hne), kin?, hc]
        exact congrArg some hstate'
      · split
        · next hx =>
          rw [hx, kin?, hp]
          exact congrArg some hstate
        · rfl

end Workshop

/-! ## Operations -/

namespace Progress

variable {library : Library} {settings : Settings} {p : Progress} {op : PlannedOperation}

theorem workshop_bind (p : Progress) (op : PlannedOperation) :
    (p.bind op).1.workshop = (p.workshop.bind op.parentId op.childId).1 := by
  unfold bind
  split
  · next he => rw [he]
  · rfl

/-- A bind that succeeds is not skipped, and a skipped one leaves a record. -/
theorem bind_done_iff (p : Progress) (op : PlannedOperation) :
    (p.bind op).2 = none ∧ (p.bind op).1.skipped = p.skipped ↔
      (p.workshop.bind op.parentId op.childId).2 = none := by
  unfold bind
  split
  · next he => simp [he]
  · exact and_iff_left rfl

/-- Says that an operation is a bind that is executed, and neither fails nor is skipped. -/
def bonds (library : Library) (settings : Settings) (p : Progress) (op : PlannedOperation) : Bool :=
  let r := execute library settings p op
  op.kind = .bind && (r.2.isNone && r.1.skipped = p.skipped)

theorem bonds_eq_of_bind (hkind : op.kind = .bind) :
    bonds library settings p op = (p.workshop.bind op.parentId op.childId).2.isNone := by
  rw [Bool.eq_iff_iff, Option.isNone_iff_eq_none, ← bind_done_iff p op]
  unfold bonds execute
  simp [hkind]

/-- **A bind that is executed bonds its ends.** -/
theorem bonds_execute (h : bonds library settings p op = true) :
    Workshop.Bonds op.parentId op.childId p.workshop
      (execute library settings p op).1.workshop := by
  have hkind : op.kind = .bind := by
    unfold bonds at h
    exact of_decide_eq_true (Bool.and_eq_true_iff.1 h).1
  rw [bonds_eq_of_bind hkind, Option.isNone_iff_eq_none] at h
  unfold execute
  rw [hkind]
  simp only
  rw [workshop_bind]
  exact Workshop.bonds_bind h

/-- **Every other operation keeps the relatives of all instances.** -/
theorem kin?_execute (h : bonds library settings p op = false) (x : String) :
    (execute library settings p op).1.workshop.kin? x = p.workshop.kin? x := by
  have hchange : ∀ {f : Instance → Outcome Instance}, (∀ e, (f e).state.kin = e.kin) →
      (p.workshop.change op.parentId f).1.kin? x = p.workshop.kin? x := fun hf =>
    Workshop.kin?_change hf p.workshop op.parentId x
  unfold execute
  cases hkind : op.kind with
  | bind =>
    rw [bonds_eq_of_bind hkind, Option.isNone_eq_false_iff] at h
    obtain ⟨error, herror⟩ := Option.isSome_iff_exists.1 h
    simp only
    rw [workshop_bind]
    exact Workshop.kin?_bind_of_error herror x
  | adopt =>
    simp only
    unfold adopt adoptFrom
    split
    · rfl
    · exact hchange fun e => e.kin_adopt _ _
  | define =>
    simp only
    unfold define
    split
    · rfl
    · exact hchange fun e => e.kin_define _ _
  | link =>
    simp only
    unfold link linkFrom
    simp only
    split
    · rfl
    · exact hchange fun e => e.kin_link _ _ _ _
  | place => rfl
  | other => rfl

end Progress

end Ontogram
