import Ontogram.Proofs.Diagram.Execution

/-!
# What operations read and write

An operation reads and writes the instances of its two ends and no others, and a stitch writes that
of the root alone. So a run comes out the same from two states that agree on the elements of its
operations, and it leaves every other instance as it was.

Each operation has two lemmas: `Agree.…` on what it does to states that agree, and `agree_…` on what
it leaves alone.
-/

namespace Ontogram

namespace Workshop

variable {w v u : Workshop} {ids : List String} {id : String}

/-- The same instances for some elements, and the same causes where there is none. -/
structure Agree (ids : List String) (w v : Workshop) : Prop where
  get? : ∀ id ∈ ids, w.get? id = v.get? id
  missing : ∀ id ∈ ids, w.missing id = v.missing id

theorem Agree.refl (ids : List String) (w : Workshop) : Agree ids w w :=
  ⟨fun _ _ => rfl, fun _ _ => rfl⟩

theorem Agree.symm (h : Agree ids w v) : Agree ids v w :=
  ⟨fun id hid => (h.get? id hid).symm, fun id hid => (h.missing id hid).symm⟩

theorem Agree.trans (h : Agree ids w v) (h' : Agree ids v u) : Agree ids w u :=
  ⟨fun id hid => (h.get? id hid).trans (h'.get? id hid),
    fun id hid => (h.missing id hid).trans (h'.missing id hid)⟩

theorem Agree.mono {some : List String} (h : Agree ids w v) (hs : some ⊆ ids) : Agree some w v :=
  ⟨fun id hid => h.get? id (hs hid), fun id hid => h.missing id (hs hid)⟩

theorem Agree.single (h : Agree ids w v) (hid : id ∈ ids) : Agree [id] w v :=
  h.mono (List.cons_subset.2 ⟨hid, List.nil_subset ids⟩)

theorem Agree.of_forall (h : ∀ id ∈ ids, Agree [id] w v) : Agree ids w v :=
  ⟨fun id hid => (h id hid).get? id List.mem_cons_self,
    fun id hid => (h id hid).missing id List.mem_cons_self⟩

theorem Agree.get (h : Agree ids w v) (hid : id ∈ ids) : w.get id = v.get id := by
  unfold Workshop.get
  rw [h.get? id hid, h.missing id hid]

/-! ## Single changes -/

theorem Agree.put (h : Agree ids w v) (id : String) (e : Instance) :
    Agree ids (w.put id e) (v.put id e) where
  get? := by
    intro x hx
    rw [get?_put, get?_put, h.get? x hx]
  missing := h.missing

theorem agree_put (w : Workshop) (hid : id ∉ ids) (e : Instance) : Agree ids (w.put id e) w where
  get? := by
    intro x hx
    have hne : x ≠ id := by
      rintro rfl
      exact hid hx
    rw [get?_put, if_neg hne]
  missing := fun _ _ => rfl

theorem Agree.change (h : Agree ids w v) (hid : id ∈ ids) (f : Instance → Outcome Instance) :
    Agree ids (w.change id f).1 (v.change id f).1 ∧ (w.change id f).2 = (v.change id f).2 := by
  unfold Workshop.change
  rw [h.get hid]
  split
  · exact ⟨h, rfl⟩
  · exact ⟨h.put id _, rfl⟩

theorem agree_change (w : Workshop) (hid : id ∉ ids) (f : Instance → Outcome Instance) :
    Agree ids (w.change id f).1 w := by
  unfold change
  split
  · exact Agree.refl ids w
  · exact agree_put w hid _

theorem Agree.bind {parentId childId : String} (h : Agree ids w v) (hp : parentId ∈ ids)
    (hc : childId ∈ ids) :
    Agree ids (w.bind parentId childId).1 (v.bind parentId childId).1 ∧
      (w.bind parentId childId).2 = (v.bind parentId childId).2 := by
  unfold Workshop.bind
  rw [h.get hp, h.get hc]
  split
  · exact ⟨h, rfl⟩
  · split
    · exact ⟨h, rfl⟩
    · exact ⟨h, rfl⟩
    · exact ⟨(h.put parentId _).put childId _, rfl⟩

theorem agree_bind (w : Workshop) {parentId childId : String} (hp : parentId ∉ ids)
    (hc : childId ∉ ids) : Agree ids (w.bind parentId childId).1 w := by
  rcases w.bind_cases parentId childId with ⟨error, hb, -⟩ | ⟨parent, child, -, -, -, hb⟩
  · rw [hb]
    exact Agree.refl ids w
  · rw [hb]
    exact (agree_put _ hc _).trans (agree_put w hp _)

theorem Agree.stitch {rootId : String} {r : SecondaryRelation} (h : Agree ids w v)
    (hr : rootId ∈ ids) (hp : r.parentId ∈ ids) (hc : r.childId ∈ ids) :
    Agree ids (w.stitch rootId r).1 (v.stitch rootId r).1 ∧
      (w.stitch rootId r).2 = (v.stitch rootId r).2 := by
  unfold Workshop.stitch
  rw [h.get hp, h.get hc, h.get hr]
  split
  iterate 3 exact ⟨h, rfl⟩
  exact ⟨h.put rootId _, rfl⟩

theorem Agree.stitchAll {rootId : String} (h : Agree ids w v) (hr : rootId ∈ ids)
    {rs : List SecondaryRelation} (hrs : ∀ r ∈ rs, r.parentId ∈ ids ∧ r.childId ∈ ids) :
    Agree ids (stitchAll rootId rs w).1 (stitchAll rootId rs v).1 ∧
      (stitchAll rootId rs w).2 = (stitchAll rootId rs v).2 := by
  induction rs generalizing w v with
  | nil => exact ⟨h, rfl⟩
  | cons r rs ih =>
    obtain ⟨⟨hp, hc⟩, hrs⟩ := List.forall_mem_cons.1 hrs
    have hs := h.stitch hr hp hc
    unfold Workshop.stitchAll
    cases hw : w.stitch rootId r with
    | mk w₁ error? =>
      cases hv : v.stitch rootId r with
      | mk v₁ error?' =>
        rw [hw, hv] at hs
        obtain ⟨hagree, rfl⟩ := hs
        cases error? with
        | none => exact ih hagree hrs
        | some error => exact ⟨hagree, rfl⟩

theorem agree_stitch (w : Workshop) {rootId : String} (hr : rootId ∉ ids) (r : SecondaryRelation) :
    Agree ids (w.stitch rootId r).1 w := by
  unfold stitch
  split
  iterate 3 exact Agree.refl ids w
  exact agree_put w hr _

theorem agree_stitchAll {rootId : String} (hr : rootId ∉ ids) (rs : List SecondaryRelation)
    (w : Workshop) : Agree ids (stitchAll rootId rs w).1 w := by
  induction rs generalizing w with
  | nil => exact Agree.refl ids w
  | cons r rs ih =>
    have h := agree_stitch w hr r
    unfold stitchAll
    split
    · next w₁ he =>
      rw [he] at h
      exact (ih w₁).trans h
    · next w₁ _ he =>
      rw [he] at h
      exact h

theorem Agree.emitOntology (h : Agree ids w v) (hid : id ∈ ids) :
    w.emitOntology id = v.emitOntology id := by
  unfold Workshop.emitOntology
  rw [h.get hid]

end Workshop

/-! ## Runs of operations -/

namespace Progress

variable {op : PlannedOperation} {ops : List PlannedOperation} {p q : Progress} {ids : List String}

/-- The same instances for some elements, and the same skips. -/
structure Agree (ids : List String) (p q : Progress) : Prop where
  workshop : Workshop.Agree ids p.workshop q.workshop
  skipped : p.skipped = q.skipped

/-- A change of the instances that comes out the same on both sides. -/
theorem Agree.continueWith (h : Agree ids p q) {r s : Workshop × Option CompileError}
    (hrs : Workshop.Agree ids r.1 s.1 ∧ r.2 = s.2) :
    Agree ids (p.continueWith r).1 (q.continueWith s).1 ∧
      (p.continueWith r).2 = (q.continueWith s).2 :=
  ⟨⟨hrs.1, h.skipped⟩, hrs.2⟩

theorem Agree.bind (h : Agree ids p q) (hp : op.parentId ∈ ids) (hc : op.childId ∈ ids) :
    Agree ids (p.bind op).1 (q.bind op).1 ∧ (p.bind op).2 = (q.bind op).2 := by
  have hb := h.workshop.bind hp hc
  unfold Progress.bind
  cases hw : p.workshop.bind op.parentId op.childId with
  | mk w error? =>
    cases hv : q.workshop.bind op.parentId op.childId with
    | mk v error?' =>
      rw [hw, hv] at hb
      simp only at hb
      obtain ⟨hagree, rfl⟩ := hb
      split
      · next heq =>
        cases heq
        exact ⟨⟨hagree, congrArg (· ++ _) h.skipped⟩, rfl⟩
      · next hne =>
        split
        · next heq =>
          cases heq
          exact absurd rfl (hne w _ _ _ _)
        · exact h.continueWith ⟨hagree, rfl⟩

theorem Agree.adoptFrom (h : Agree ids p q) (hp : op.parentId ∈ ids)
    (template : Except TemplateError TermGraph) :
    Agree ids (p.adoptFrom template op).1 (q.adoptFrom template op).1 ∧
      (p.adoptFrom template op).2 = (q.adoptFrom template op).2 := by
  unfold Progress.adoptFrom
  split
  · exact ⟨h, rfl⟩
  · exact h.continueWith (h.workshop.change hp _)

theorem Agree.define (h : Agree ids p q) (hp : op.parentId ∈ ids) :
    Agree ids (p.define op).1 (q.define op).1 ∧ (p.define op).2 = (q.define op).2 := by
  unfold Progress.define
  split
  · exact ⟨h, rfl⟩
  · exact h.continueWith (h.workshop.change hp _)

theorem Agree.linkFrom (h : Agree ids p q) (hp : op.parentId ∈ ids) (kinds : RelationKinds)
    (template : Except TemplateError TermGraph) :
    Agree ids (p.linkFrom kinds template op).1 (q.linkFrom kinds template op).1 ∧
      (p.linkFrom kinds template op).2 = (q.linkFrom kinds template op).2 := by
  unfold Progress.linkFrom
  simp only
  split
  · exact ⟨h, rfl⟩
  · exact h.continueWith (h.workshop.change hp _)

/-- **An operation between elements on which two states agree does the same to both.** -/
theorem Agree.execute (library : Library) (settings : Settings) (h : Agree ids p q)
    (hp : op.parentId ∈ ids) (hc : op.childId ∈ ids) :
    Agree ids (execute library settings p op).1 (execute library settings q op).1 ∧
      (execute library settings p op).2 = (execute library settings q op).2 := by
  unfold Progress.execute
  split
  · exact h.bind hp hc
  · exact h.adoptFrom hp _
  · exact h.define hp
  · exact h.linkFrom hp _ _
  all_goals exact ⟨h, rfl⟩

/-- **So does a run of operations.** -/
theorem Agree.executeAll (library : Library) (settings : Settings) (h : Agree ids p q)
    (hops : ∀ op ∈ ops, op.parentId ∈ ids ∧ op.childId ∈ ids) :
    Agree ids (executeAll library settings ops p).1 (executeAll library settings ops q).1 ∧
      (executeAll library settings ops p).2 = (executeAll library settings ops q).2 := by
  induction ops generalizing p q with
  | nil => exact ⟨h, rfl⟩
  | cons op ops ih =>
    obtain ⟨hp, hc⟩ := hops op List.mem_cons_self
    have he := h.execute library settings hp hc
    unfold Progress.executeAll
    cases hl : Progress.execute library settings p op with
    | mk p' error? =>
      cases hr : Progress.execute library settings q op with
      | mk q' error?' =>
        rw [hl, hr] at he
        obtain ⟨hagree, rfl⟩ := he
        cases error? with
        | none => exact ih hagree fun o ho => hops o (List.mem_cons_of_mem op ho)
        | some error => exact ⟨hagree, rfl⟩

/-- **An operation leaves the instances of other elements alone.** -/
theorem agree_execute (library : Library) (settings : Settings) (p : Progress)
    (hp : op.parentId ∉ ids) (hc : op.childId ∉ ids) :
    Workshop.Agree ids (execute library settings p op).1.workshop p.workshop := by
  have hchange := fun f => Workshop.agree_change p.workshop hp f
  unfold execute
  split
  · have hb := Workshop.agree_bind p.workshop hp hc
    unfold bind
    split
    · next he =>
      rw [he] at hb
      exact hb
    · exact hb
  · unfold adopt adoptFrom
    split
    · exact Workshop.Agree.refl ids _
    · exact hchange _
  · unfold define
    split
    · exact Workshop.Agree.refl ids _
    · exact hchange _
  · unfold link linkFrom
    simp only
    split
    · exact Workshop.Agree.refl ids _
    · exact hchange _
  all_goals exact Workshop.Agree.refl ids _

/-- **So does a run of operations.** -/
theorem agree_executeAll (library : Library) (settings : Settings)
    (hops : ∀ op ∈ ops, op.parentId ∉ ids ∧ op.childId ∉ ids) (p : Progress) :
    Workshop.Agree ids (executeAll library settings ops p).1.workshop p.workshop := by
  induction ops generalizing p with
  | nil => exact Workshop.Agree.refl ids _
  | cons op ops ih =>
    obtain ⟨hp, hc⟩ := hops op List.mem_cons_self
    have he := agree_execute library settings p hp hc
    unfold executeAll
    split
    · next p' hr =>
      rw [hr] at he
      exact (ih (fun o ho => hops o (List.mem_cons_of_mem op ho)) p').trans he
    · next p' _ hr =>
      rw [hr] at he
      exact he

end Progress

end Ontogram
