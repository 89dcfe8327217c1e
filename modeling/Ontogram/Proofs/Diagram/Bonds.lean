import Ontogram.Proofs.Diagram.Compile
import Ontogram.Proofs.Diagram.Kin
import Ontogram.Proofs.Diagram.Order

/-!
# Which instances a run bonds

A bind that is executed is written down three times: the child gets its parent, the parent notes the
name of the child, and the plan has the bind among its operations and not among those it skipped.
These agree at every moment of a run, for a child that has a parent is not bound again, and nothing
else changes a parent or a note.

* `Run` — moments of which each follows from the one before it.
* `Run.childIds_nodup`, `Run.parent_stays`, `Run.mem_children_iff` — what every run preserves.
* `Progress.mem_executedBinds_iff_executed`, `Progress.mem_executedBinds_iff` — which binds a run of
  operations executes.
* `run_diagramMoments` — the moments of a compilation are a run.
* `executed_binds_are_remembered` — the three records agree.
-/

namespace Ontogram

open ExecutionPlan

/-- A moment of a run: the bind that was just executed, if one was, and the instances. -/
structure Moment where
  bind? : Option PlannedOperation
  workshop : Workshop

/-- The binds that were executed, in turn. -/
def executedBinds (ms : List Moment) : List PlannedOperation :=
  ms.filterMap Moment.bind?

theorem executedBinds_append (ms ns : List Moment) :
    executedBinds (ms ++ ns) = executedBinds ms ++ executedBinds ns :=
  List.filterMap_append

/-- The instances after some moments. -/
def endOf (w : Workshop) (ms : List Moment) : Workshop :=
  ms.foldl (fun _ m => m.workshop) w

theorem endOf_append (w : Workshop) (ms ns : List Moment) :
    endOf w (ms ++ ns) = endOf (endOf w ms) ns :=
  List.foldl_append

/-- Moments of which each follows from the one before it: a bind bonds its ends, and everything else
keeps the relatives of all instances. -/
inductive Run : Workshop → List Moment → Prop where
  | done {w : Workshop} : Run w []
  | still {w w' : Workshop} {ms : List Moment} (same : ∀ x, w'.kin? x = w.kin? x)
      (rest : Run w' ms) : Run w (⟨none, w'⟩ :: ms)
  | bound {w w' : Workshop} {op : PlannedOperation} {ms : List Moment}
      (bonds : Workshop.Bonds op.parentId op.childId w w') (rest : Run w' ms) :
      Run w (⟨some op, w'⟩ :: ms)

namespace Run

variable {w : Workshop} {ms ns : List Moment} {op : PlannedOperation} {x n : String}

/-! ## Runs in parts -/

theorem append {v : Workshop} (h : Run w ms) (hv : endOf w ms = v) (hn : Run v ns) :
    Run w (ms ++ ns) := by
  induction h with
  | @done w =>
    obtain rfl : w = v := hv
    exact hn
  | still same _ ih => exact .still same (ih hv)
  | bound bonds _ ih => exact .bound bonds (ih hv)

/-- A run stops and goes on at any of its moments. -/
theorem of_append (h : Run w (ms ++ ns)) : Run w ms ∧ Run (endOf w ms) ns := by
  induction ms generalizing w with
  | nil => exact ⟨.done, h⟩
  | cons m ms ih =>
    cases h with
    | still same rest => exact ⟨.still same (ih rest).1, (ih rest).2⟩
    | bound bonds rest => exact ⟨.bound bonds (ih rest).1, (ih rest).2⟩

/-! ## What every run preserves -/

/-- **No run changes a name.** -/
theorem name?_endOf (h : Run w ms) (x : String) : (endOf w ms).name? x = w.name? x := by
  induction h with
  | done => rfl
  | still same _ ih => exact ih.trans (by rw [Workshop.name?_eq, same, ← Workshop.name?_eq])
  | bound bonds _ ih => exact ih.trans (bonds.name?_eq x)

/-- **An instance keeps its parent.** -/
theorem parent?_endOf (h : Run w ms) (hx : w.parent? x = some n) :
    (endOf w ms).parent? x = some n := by
  induction h with
  | done => exact hx
  | still same _ ih => exact ih (by rwa [Workshop.parent?, same])
  | bound bonds _ ih =>
    obtain ⟨horphan, _, -, hparent⟩ := bonds.parent?_eq
    refine ih ?_
    rw [hparent, if_neg, hx]
    rintro rfl
    rw [horphan] at hx
    cases hx

/-- What is bound in a run has no parent before. -/
theorem unbound_of_mem (h : Run w ms) (hop : op ∈ executedBinds ms) :
    w.parent? op.childId = none := by
  induction h with
  | done => exact absurd hop List.not_mem_nil
  | still same _ ih =>
    have hrest := ih hop
    rwa [Workshop.parent?, same] at hrest
  | @bound w w' first ms bonds _ ih =>
    obtain ⟨horphan, _, -, hparent⟩ := bonds.parent?_eq
    rcases List.mem_cons.1 hop with rfl | hop
    · exact horphan
    · have hrest := ih hop
      rw [hparent] at hrest
      split at hrest
      · cases hrest
      · exact hrest

/-- **No instance is bound twice.** -/
theorem childIds_nodup (h : Run w ms) :
    ((executedBinds ms).map PlannedOperation.childId).Nodup := by
  induction h with
  | done => exact List.nodup_nil
  | still _ _ ih => exact ih
  | @bound w w' first ms bonds rest ih =>
    refine List.nodup_cons.2 ⟨fun hmem => ?_, ih⟩
    obtain ⟨op, hop, hchild⟩ := List.mem_map.1 hmem
    obtain ⟨-, n, -, hparent⟩ := bonds.parent?_eq
    -- The child has its parent by now, so nothing binds it again.
    have hnone := rest.unbound_of_mem hop
    rw [hchild, hparent, if_pos rfl] at hnone
    cases hnone

/-- **A bind gives the child its parent for the rest of the run.** -/
theorem parent_stays {w' : Workshop} (h : Run w (⟨some op, w'⟩ :: ms)) {m : Moment}
    (hm : m ∈ (⟨some op, w'⟩ :: ms : List Moment)) :
    ∃ n, m.workshop.name? op.parentId = some n ∧ m.workshop.parent? op.childId = some n := by
  cases h with
  | bound bonds rest =>
    obtain ⟨-, n, hn, hparent⟩ := bonds.parent?_eq
    have hfirst : w'.parent? op.childId = some n := by rw [hparent, if_pos rfl]
    rw [← bonds.name?_eq] at hn
    rcases List.mem_cons.1 hm with rfl | hm
    · exact ⟨n, hn, hfirst⟩
    · obtain ⟨before, after, rfl⟩ := List.append_of_mem hm
      rw [List.append_cons] at rest
      have hpart := rest.of_append.1
      have hend : endOf w' (before ++ [m]) = m.workshop := List.foldl_concat ..
      rw [← hend]
      exact ⟨n, (hpart.name?_endOf _).trans hn, hpart.parent?_endOf hfirst⟩

/-- **What an instance notes is what is bound into it.** -/
theorem mem_children_iff (h : Run w ms) : n ∈ (endOf w ms).children x ↔
    n ∈ w.children x ∨
      ∃ op ∈ executedBinds ms, op.parentId = x ∧ w.name? op.childId = some n := by
  induction h with
  | done => exact (or_iff_left fun ⟨_, hop, _⟩ => List.not_mem_nil hop).symm
  | still same _ ih =>
    refine ih.trans ?_
    simp only [Workshop.children, Workshop.name?_eq, same]
    rfl
  | @bound w w' first ms bonds _ ih =>
    refine ih.trans ?_
    have hcons : executedBinds (⟨some first, w'⟩ :: ms) = first :: executedBinds ms := rfl
    rw [hcons, bonds.mem_children_iff]
    simp only [List.mem_cons, exists_eq_or_imp, bonds.name?_eq, or_assoc]

/-- **An instance notes the name of another one if and only if a bind put that one into it**, where
names are distinct and no instance noted any before. -/
theorem mem_children_iff_bound (h : Run w ms) (hd : w.NamesDistinct) (hnone : w.children x = [])
    {y : String} {p c : Instance} (hp : (endOf w ms).get? x = some p)
    (hc : (endOf w ms).get? y = some c) :
    c.name ∈ p.children ↔ ∃ op ∈ executedBinds ms, op.parentId = x ∧ op.childId = y := by
  have hname : w.name? y = some c.name := by
    rw [← h.name?_endOf, Workshop.name?, hc]
    rfl
  have hchildren : (endOf w ms).children x = p.children := by
    rw [Workshop.children, Workshop.kin?, hp]
    rfl
  rw [← hchildren, h.mem_children_iff, hnone, or_iff_right List.not_mem_nil]
  refine exists_congr fun op => and_congr_right fun _ => and_congr_right fun _ => ?_
  constructor
  · exact fun hop => hd _ _ _ hop hname
  · rintro rfl
    exact hname

/-- **A bind leaves its child with the name of its parent for the rest of the run.** -/
theorem parent_of_bound {w' : Workshop} {before after : List Moment}
    (h : Run w (before ++ ⟨some op, w'⟩ :: after)) {m : Moment}
    (hm : m ∈ (⟨some op, w'⟩ :: after : List Moment)) :
    ∃ p c, m.workshop.get? op.parentId = some p ∧ m.workshop.get? op.childId = some c ∧
      c.parent = some p.name := by
  obtain ⟨n, hn, hparent⟩ := h.of_append.2.parent_stays hm
  obtain ⟨p, hp, rfl⟩ := Option.map_eq_some_iff.1 hn
  obtain ⟨k, hk, hkn⟩ := Option.bind_eq_some_iff.1 hparent
  obtain ⟨c, hc, rfl⟩ := Option.map_eq_some_iff.1 hk
  exact ⟨p, c, hp, hc, hkn⟩

end Run

variable {library : Library} {settings : Settings}

/-! ## The moments of operations -/

namespace Progress

/-- The moments of a run of operations, up to the first failure. -/
def moments (library : Library) (settings : Settings) :
    List PlannedOperation → Progress → List Moment
  | [], _ => []
  | op :: ops, p =>
    let r := execute library settings p op
    let m : Moment := ⟨if bonds library settings p op then some op else none, r.1.workshop⟩
    match r.2 with
    | none => m :: moments library settings ops r.1
    | some _ => [m]

/-- **Operations run.** -/
theorem run_moments (library : Library) (settings : Settings) (ops : List PlannedOperation)
    (p : Progress) :
    Run p.workshop (moments library settings ops p) ∧
      endOf p.workshop (moments library settings ops p) =
        (executeAll library settings ops p).1.workshop := by
  induction ops generalizing p with
  | nil => exact ⟨.done, rfl⟩
  | cons op ops ih =>
    have hstep : ∀ {ms}, Run (execute library settings p op).1.workshop ms →
        Run p.workshop (⟨if bonds library settings p op then some op else none,
          (execute library settings p op).1.workshop⟩ :: ms) := by
      intro ms hms
      cases hb : bonds library settings p op with
      | true => exact .bound (bonds_execute hb) hms
      | false => exact .still (kin?_execute hb) hms
    unfold moments executeAll
    rcases he : execute library settings p op with ⟨q, error?⟩
    rw [he] at hstep
    cases error? with
    | none => exact ⟨hstep (ih q).1, (ih q).2⟩
    | some error => exact ⟨hstep .done, rfl⟩

theorem bonds_eq_true_iff {p : Progress} {op : PlannedOperation} :
    bonds library settings p op = true ↔ op.kind = .bind ∧
      ∃ q, execute library settings p op = (q, none) ∧ q.skipped = p.skipped := by
  unfold bonds
  rcases execute library settings p op with ⟨q, _ | error⟩ <;> simp

theorem executedBinds_moments_cons (op : PlannedOperation) (ops : List PlannedOperation)
    (p : Progress) : executedBinds (moments library settings (op :: ops) p) =
      (if bonds library settings p op then [op] else []) ++
        match execute library settings p op with
        | (q, none) => executedBinds (moments library settings ops q)
        | (_, some _) => [] := by
  rw [moments]
  rcases execute library settings p op with ⟨q, _ | error⟩ <;>
    cases bonds library settings p op <;> rfl

/-- The binds that lead to moments are those that the run executes. -/
theorem mem_executedBinds_iff_executed {ops : List PlannedOperation} {p : Progress}
    {op : PlannedOperation} : op ∈ executedBinds (moments library settings ops p) ↔
      op.kind = .bind ∧ Executed library settings op ops p := by
  induction ops generalizing p with
  | nil => exact ⟨nofun, fun h => nomatch h.2⟩
  | cons o ops ih =>
    rw [executedBinds_moments_cons, List.mem_append, List.mem_ite_nil_right, bonds_eq_true_iff,
      List.mem_singleton]
    constructor
    · rintro (⟨⟨hkind, q, he, hkept⟩, rfl⟩ | hop)
      · exact ⟨hkind, .here he hkept⟩
      · split at hop
        · next q he => exact ⟨(ih.1 hop).1, .later he (ih.1 hop).2⟩
        · cases hop
    · rintro ⟨hkind, ⟨he, hkept⟩ | ⟨he, hrest⟩⟩
      · exact Or.inl ⟨⟨hkind, _, he, hkept⟩, rfl⟩
      · right
        rw [he]
        exact ih.2 ⟨hkind, hrest⟩

/-- The ends of a bind. -/
def endsOf (op : PlannedOperation) : String × String :=
  (op.parentId, op.childId)

/-- An operation without failure is a bind that is skipped, or leaves the log alone. -/
theorem skipped_execute {p q : Progress} {op : PlannedOperation}
    (he : execute library settings p op = (q, none)) :
    (q.skipped = p.skipped ∧ bonds library settings p op = decide (op.kind = .bind)) ∨
      ∃ x : SkippedBinding, q.skipped = p.skipped ++ [x] ∧ (x.parentId, x.childId) = endsOf op ∧
        op.kind = .bind ∧ bonds library settings p op = false := by
  unfold bonds
  rw [he]
  rcases skips_or_quiet_execute library settings p.workshop op with
    ⟨w, x, hx, -, -, hstep⟩ | ⟨w, error?, -, hstep⟩
  · obtain ⟨rfl, -⟩ := Prod.mk.inj (he.symm.trans (hstep p.skipped))
    refine Or.inr ⟨x, rfl, ?_, hx.kind, by simp⟩
    rw [hx.parentId, hx.childId, endsOf]
  · obtain ⟨rfl, -⟩ := Prod.mk.inj (he.symm.trans (hstep p.skipped))
    exact Or.inl ⟨rfl, by simp⟩

/-- **Each bind is executed or skipped, and none is both.** A run without failure adds to the log
the ends of those that it skips. -/
theorem executedBinds_append_skipped_perm {ops : List PlannedOperation} {p q : Progress}
    (hr : executeAll library settings ops p = (q, none)) :
    (executedBinds (moments library settings ops p)).Sublist
        (ops.filter fun op => op.kind = .bind) ∧
      ∃ new, q.skipped = p.skipped ++ new ∧
        ((executedBinds (moments library settings ops p)).map endsOf ++
          new.map fun x => (x.parentId, x.childId)).Perm
            ((ops.filter fun op => op.kind = .bind).map endsOf) := by
  induction ops generalizing p with
  | nil =>
    cases hr
    exact ⟨List.Sublist.refl _, [], (List.append_nil _).symm, List.Perm.refl _⟩
  | cons op ops ih =>
    obtain ⟨p', he, hr⟩ := executeAll_cons_done hr
    obtain ⟨hsub, new, hnew, hperm⟩ := ih hr
    rw [executedBinds_moments_cons, he, List.filter_cons]
    rcases skipped_execute he with ⟨hlog, hb⟩ | ⟨x, hlog, hends, hkind, hb⟩
    · rw [hb, ← hlog]
      by_cases hkind : op.kind = .bind
      · rw [decide_eq_true hkind]
        exact ⟨hsub.cons_cons op, new, hnew, hperm.cons _⟩
      · rw [decide_eq_false hkind]
        exact ⟨hsub, new, hnew, hperm⟩
    · rw [hb, decide_eq_true hkind]
      refine ⟨hsub.cons op, x :: new, ?_, ?_⟩
      · rw [hnew, hlog, List.append_assoc, List.singleton_append]
      rw [List.map_cons, hends]
      exact List.perm_middle.trans (hperm.cons _)

/-- **The binds that are executed are those that are not in the log.** -/
theorem mem_executedBinds_iff {ops : List PlannedOperation} {w : Workshop} {q : Progress}
    (hn : (ops.map endsOf).Nodup) (hr : executeAll library settings ops ⟨w, []⟩ = (q, none))
    (op : PlannedOperation) : op ∈ executedBinds (moments library settings ops ⟨w, []⟩) ↔
      op ∈ ops ∧ op.kind = .bind ∧ ∀ x ∈ q.skipped, (x.parentId, x.childId) ≠ endsOf op := by
  obtain ⟨hsub, new, hnew, hperm⟩ := executedBinds_append_skipped_perm hr
  obtain rfl : q.skipped = new := hnew
  have hbinds : ((ops.filter fun op => op.kind = .bind).map endsOf).Nodup :=
    hn.sublist (List.filter_sublist.map _)
  have hapart := (hperm.nodup_iff.2 hbinds).disjoint
  constructor
  · intro hop
    obtain ⟨hmem, hkind⟩ := List.mem_filter.1 (hsub.subset hop)
    refine ⟨hmem, of_decide_eq_true hkind, fun x hx heq => ?_⟩
    exact hapart (List.mem_map_of_mem hop) (List.mem_map.2 ⟨x, hx, heq⟩)
  · rintro ⟨hmem, hkind, hskipped⟩
    have hends : endsOf op ∈ (ops.filter fun op => op.kind = .bind).map endsOf :=
      List.mem_map_of_mem (List.mem_filter.2 ⟨hmem, decide_eq_true hkind⟩)
    rcases List.mem_append.1 (hperm.mem_iff.2 hends) with hexecuted | hlogged
    · obtain ⟨op', hop', heq⟩ := List.mem_map.1 hexecuted
      -- No two operations have the same ends.
      rwa [List.inj_on_of_nodup_map hn (List.mem_of_mem_filter (hsub.subset hop')) hmem heq]
        at hop'
    · obtain ⟨x, hx, heq⟩ := List.mem_map.1 hlogged
      exact absurd heq (hskipped x hx)

end Progress

/-! ## The moments of a component -/

/-- The moments of stitches, up to the first failure. -/
def Workshop.stitchMoments (rootId : String) : List SecondaryRelation → Workshop → List Moment
  | [], _ => []
  | r :: rs, w =>
    let s := w.stitch rootId r
    ⟨none, s.1⟩ ::
      match s.2 with
      | none => stitchMoments rootId rs s.1
      | some _ => []

/-- Stitches execute no bind. -/
theorem Workshop.executedBinds_stitchMoments (rootId : String) (rs : List SecondaryRelation)
    (w : Workshop) : executedBinds (stitchMoments rootId rs w) = [] := by
  induction rs generalizing w with
  | nil => rfl
  | cons r rs ih =>
    unfold stitchMoments
    simp only
    cases (w.stitch rootId r).2 with
    | none => exact ih _
    | some error => rfl

theorem Workshop.run_stitchMoments (rootId : String) (rs : List SecondaryRelation) (w : Workshop) :
    Run w (stitchMoments rootId rs w) ∧
      endOf w (stitchMoments rootId rs w) = (stitchAll rootId rs w).1 := by
  induction rs generalizing w with
  | nil => exact ⟨.done, rfl⟩
  | cons r rs ih =>
    have hsame := kin?_stitch w rootId r
    unfold stitchMoments stitchAll
    rcases hs : w.stitch rootId r with ⟨w', error?⟩
    rw [hs] at hsame
    cases error? with
    | none => exact ⟨.still hsame (ih w').1, (ih w').2⟩
    | some error => exact ⟨.still hsame .done, rfl⟩

namespace ComponentPlan

/-- The moments of a component: those of its operations, and then those of its stitches. -/
def moments (library : Library) (settings : Settings) (c : ComponentPlan) (w : Workshop) :
    List Moment :=
  match c.rootId with
  | none => []
  | some rootId =>
    let r := Progress.executeAll library settings c.operations ⟨w, []⟩
    Progress.moments library settings c.operations ⟨w, []⟩ ++
      match r.2 with
      | none => Workshop.stitchMoments rootId c.secondary r.1.workshop
      | some _ => []

theorem workshop_conclude (c : ComponentPlan) (rootId : String) (p : Progress) :
    (c.conclude rootId (p, none)).workshop =
      (Workshop.stitchAll rootId c.secondary p.workshop).1 := by
  unfold conclude
  simp only
  split <;> next h => rw [h]

/-- **A component runs**, and ends with the instances that it leaves. -/
theorem run_moments (library : Library) (settings : Settings) (c : ComponentPlan) (w : Workshop) :
    Run w (c.moments library settings w) ∧
      endOf w (c.moments library settings w) = (c.compile library settings w).workshop := by
  cases hroot : c.rootId with
  | none =>
    rw [moments, compile, hroot]
    exact ⟨.done, rfl⟩
  | some rootId =>
    obtain ⟨hrun, hend⟩ := Progress.run_moments library settings c.operations ⟨w, []⟩
    rw [moments, compile, hroot]
    simp only
    rcases hr : Progress.executeAll library settings c.operations ⟨w, []⟩ with ⟨p, error?⟩
    rw [hr] at hend
    cases error? with
    | some error =>
      rw [List.append_nil]
      exact ⟨hrun, hend⟩
    | none =>
      obtain ⟨hstitches, hlast⟩ := Workshop.run_stitchMoments rootId c.secondary p.workshop
      refine ⟨hrun.append hend hstitches, ?_⟩
      rw [endOf_append, hend, hlast, workshop_conclude]

/-- **The binds that a component with an ontology executed** are those of its operations that it did
not skip. -/
theorem mem_executedBinds_iff {c : ComponentPlan} {w : Workshop} {x : CompiledOntology}
    (hn : (c.operations.map Progress.endsOf).Nodup)
    (hx : (c.compile library settings w).ontology = .ok x) (op : PlannedOperation) :
    op ∈ executedBinds (c.moments library settings w) ↔
      op ∈ c.operations ∧ op.kind = .bind ∧ ∀ b ∈ (c.compile library settings w).skipped,
        (b.parentId, b.childId) ≠ Progress.endsOf op := by
  obtain ⟨rootId, p, w', hroot, hp, -, -, hskipped⟩ := compile_ok hx
  rw [hskipped, ← Progress.mem_executedBinds_iff hn hp]
  rw [moments, hroot]
  simp only [hp]
  rw [executedBinds_append, Workshop.executedBinds_stitchMoments, List.append_nil]

end ComponentPlan

/-! ## The moments of a compilation -/

/-- The moments of the components of a diagram, one component after the other. -/
def diagramMoments (library : Library) (settings : Settings) (drawing : Drawing) (ids : IdSource) :
    List Moment :=
  (diagramStarts library settings drawing ids).flatMap fun s => s.1.moments library settings s.2

/-- The instances that the last component of a diagram leaves. -/
def finalWorkshop (library : Library) (settings : Settings) (drawing : Drawing) (ids : IdSource) :
    Workshop :=
  let o := (OperationGraph.build drawing settings ids).1
  let start := Workshop.create library o
  let results := compileComponents library settings (ofGraph o).components .empty start
  (results.getLast?.map fun r => r.2.workshop).getD start

/-- Components in turn run, and end with the instances that the last one leaves. -/
theorem run_starts (library : Library) (settings : Settings) (cs : List ComponentPlan)
    (w : Workshop) :
    Run w ((starts library settings cs w).flatMap fun s => s.1.moments library settings s.2) ∧
      endOf w ((starts library settings cs w).flatMap fun s => s.1.moments library settings s.2) =
        ((starts library settings cs w).getLast?.map fun s =>
          (s.1.compile library settings s.2).workshop).getD w := by
  induction cs generalizing w with
  | nil => exact ⟨.done, rfl⟩
  | cons c cs ih =>
    obtain ⟨hrun, hend⟩ := c.run_moments library settings w
    obtain ⟨hrest, hlast⟩ := ih (c.compile library settings w).workshop
    rw [starts, List.flatMap_cons]
    refine ⟨hrun.append hend hrest, ?_⟩
    rw [endOf_append, hend, hlast, List.getLast?_cons]
    cases (starts library settings cs (c.compile library settings w).workshop).getLast? <;> rfl

/-- **A compilation runs**, from the instances that it makes to those that it leaves. -/
theorem run_diagramMoments (library : Library) (settings : Settings) (drawing : Drawing)
    (ids : IdSource) :
    let start := Workshop.create library (OperationGraph.build drawing settings ids).1
    Run start (diagramMoments library settings drawing ids) ∧
      endOf start (diagramMoments library settings drawing ids) =
        finalWorkshop library settings drawing ids := by
  intro start
  obtain ⟨hrun, hend⟩ := run_starts library settings
    (ofGraph (OperationGraph.build drawing settings ids).1).components start
  refine ⟨hrun, hend.trans ?_⟩
  unfold finalWorkshop
  simp only
  rw [compileComponents_eq_map_starts _ (References.sound_empty library), List.getLast?_map,
    Option.map_map]
  rfl

/-- No two operations of a component with an ontology have the same ends. -/
theorem operations_endsOf_nodup {drawing : Drawing} {ids : IdSource} {s : ComponentPlan × Workshop}
    (hs : s ∈ diagramStarts library settings drawing ids) {x : CompiledOntology}
    (hx : (s.1.compile library settings s.2).ontology = .ok x) :
    (s.1.operations.map Progress.endsOf).Nodup := by
  obtain ⟨root, -, -, hroot, -⟩ := ComponentPlan.compile_ok hx
  rw [(operations_of_rootId (mem_of_mem_starts hs) hroot).1]
  exact operations_ends_nodup (wellFormed_plannedGraph drawing settings ids) root

/--
**What a compilation remembers of the binds it executed.**

A component with an ontology has executed its binds but for those it skipped, and no two of them
have the same child. From the moment a bind was executed, its child has the name of its parent for
the rest of the compilation. If the instances have distinct names, an instance notes the name of
another one at some moment, and so in the end, if and only if a bind up to then put that one into
it.
-/
theorem executed_binds_are_remembered (library : Library) (settings : Settings) (drawing : Drawing)
    (ids : IdSource) :
    let start := Workshop.create library (OperationGraph.build drawing settings ids).1
    let run := diagramMoments library settings drawing ids
    (∀ s ∈ diagramStarts library settings drawing ids, ∀ x,
      (s.1.compile library settings s.2).ontology = .ok x →
        let binds := executedBinds (s.1.moments library settings s.2)
        (binds.map PlannedOperation.childId).Nodup ∧
        ∀ op, op ∈ binds ↔ op ∈ s.1.operations ∧ op.kind = .bind ∧
          ∀ b ∈ (s.1.compile library settings s.2).skipped,
            ¬(b.parentId = op.parentId ∧ b.childId = op.childId)) ∧
    (∀ before op w after, run = before ++ ⟨some op, w⟩ :: after →
      ∀ m ∈ (⟨some op, w⟩ :: after : List Moment),
        ∃ p c, m.workshop.get? op.parentId = some p ∧ m.workshop.get? op.childId = some c ∧
          c.parent = some p.name) ∧
    (start.NamesDistinct → ∀ ms, ms <+: run → ∀ x y p c,
      (endOf start ms).get? x = some p → (endOf start ms).get? y = some c →
        (c.name ∈ p.children ↔ ∃ op ∈ executedBinds ms, op.parentId = x ∧ op.childId = y)) ∧
    endOf start run = finalWorkshop library settings drawing ids := by
  intro start run
  obtain ⟨hrun, hend⟩ : Run start run ∧ endOf start run = _ :=
    run_diagramMoments library settings drawing ids
  refine ⟨fun s hs x hx => ⟨?_, fun op => ?_⟩, ?_, ?_, hend⟩
  · exact (s.1.run_moments library settings s.2).1.childIds_nodup
  · rw [ComponentPlan.mem_executedBinds_iff (operations_endsOf_nodup hs hx) hx]
    simp only [ne_eq, Progress.endsOf, Prod.mk.injEq]
  · intro before op w after h m hm
    exact (h ▸ hrun).parent_of_bound hm
  · rintro hd ms ⟨rest, hms⟩ x y p c hp hc
    have hpart : Run start ms := (hms ▸ hrun : Run start (ms ++ rest)).of_append.1
    exact hpart.mem_children_iff_bound hd (Workshop.unbound_create library _ x).2 hp hc

/-- An element with a bind that has no path and then one that has. -/
def boundOnce : Drawing :=
  (Drawing.empty.relate "a" "A[T|t_]" "mds:bind" "c" "C[T|t_]").relate
    "a" "A[T|t_]" "mds:bind" "b" "B[T|v_]"

/-- One bind is executed, and the other one is skipped after it. -/
theorem executed_binds_are_remembered_boundOnce :
    let last := finalWorkshop variableTemplate .standard boundOnce (.ofHeader "gen")
    (∃ s ∈ diagramStarts variableTemplate .standard boundOnce (.ofHeader "gen"),
      ⟨"r2", .bind, "mds:bind", "a", "b", "B[T|v_]"⟩ ∈
        executedBinds (s.1.moments variableTemplate .standard s.2)) ∧
    ∃ p b c, last.get? "a" = some p ∧ last.get? "b" = some b ∧ last.get? "c" = some c ∧
      b.parent = some p.name ∧ b.name ∈ p.children ∧ c.name ∉ p.children := by
  intro last
  let op : PlannedOperation := ⟨"r2", .bind, "mds:bind", "a", "b", "B[T|v_]"⟩
  have hbinds : (diagramMoments variableTemplate .standard boundOnce (.ofHeader "gen")).map
      Moment.bind? = [some op, none] := by decide +kernel
  have hok : ∃ s ∈ diagramStarts variableTemplate .standard boundOnce (.ofHeader "gen"),
      (s.1.compile variableTemplate .standard s.2).ontology?.isSome = true ∧ op ∈ s.1.operations ∧
        (s.1.compile variableTemplate .standard s.2).skipped.map SkippedBinding.childId =
          ["c"] := by
    decide +kernel
  have hnames : ((Workshop.create variableTemplate (OperationGraph.build boundOnce .standard
      (.ofHeader "gen")).1).instances.map fun f => f.2.name) = ["A", "C", "B"] := by decide +kernel
  have hlast : (last.get? "a").isSome ∧ (last.get? "b").isSome ∧ (last.get? "c").isSome := by
    decide +kernel
  obtain ⟨hexecuted, hparent, hnoted, hend⟩ :=
    executed_binds_are_remembered variableTemplate .standard boundOnce (.ofHeader "gen")
  obtain ⟨s, hs, hontology, hop, hskipped⟩ := hok
  obtain ⟨x, hx⟩ := Option.isSome_iff_exists.1 hontology
  refine ⟨⟨s, hs, ((hexecuted s hs x (ComponentResult.ontology?_eq_some.1 hx)).2 op).2
    ⟨hop, rfl, fun b hb hbc => ?_⟩⟩, ?_⟩
  · have hc : b.childId ∈ ["c"] := hskipped ▸ List.mem_map_of_mem hb
    exact absurd (List.mem_singleton.1 hc) (by rw [hbc.2]; decide)
  obtain ⟨p, hp⟩ := Option.isSome_iff_exists.1 hlast.1
  obtain ⟨b, hb⟩ := Option.isSome_iff_exists.1 hlast.2.1
  obtain ⟨c, hc⟩ := Option.isSome_iff_exists.1 hlast.2.2
  have hinEnd := hnoted (Workshop.namesDistinct_of_nodup (by rw [hnames]; decide)) _
    (List.prefix_refl _)
  have honly : executedBinds (diagramMoments variableTemplate .standard boundOnce
      (.ofHeader "gen")) = [op] := by
    have hmap := congrArg (List.filterMap id) hbinds
    rwa [List.filterMap_map] at hmap
  rw [hend, honly] at hinEnd
  refine ⟨p, b, c, hp, hb, hc, ?_, ?_, ?_⟩
  · obtain ⟨⟨_, w⟩, ms, hrun, rfl, hms⟩ := List.map_eq_cons_iff.1 hbinds
    obtain ⟨m, _, rfl, -, hnil⟩ := List.map_eq_cons_iff.1 hms
    rw [List.map_eq_nil_iff.1 hnil] at hrun
    have hm : m.workshop = last := by
      refine Eq.trans ?_ hend
      rw [hrun]
      rfl
    obtain ⟨p', b', hp', hb', hbp⟩ := hparent [] op w [m] hrun m (by simp)
    rw [hm] at hp' hb'
    obtain rfl := Option.some.inj (hp.symm.trans hp')
    obtain rfl := Option.some.inj (hb.symm.trans hb')
    exact hbp
  · exact (hinEnd "a" "b" p b hp hb).2 ⟨op, List.mem_cons_self, rfl, rfl⟩
  · intro hmem
    obtain ⟨d, hd, -, hdc⟩ := (hinEnd "a" "c" p c hp hc).1 hmem
    rw [List.mem_singleton.1 hd] at hdc
    exact absurd hdc (by decide)

end Ontogram
