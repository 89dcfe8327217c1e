import Ontogram.Proofs.Diagram.Agreement
import Ontogram.Proofs.Instance.Atomic

/-!
# Skipped binds have no effect

A bind that fails leaves both instances as they were. So a run that skips a bind goes on with the
instances it had, and nothing reads the log of what was skipped before. The run without the binds
that it skipped passes through the same instances, ends in the same way, and skips nothing.

* `Workshop.agree_bind_of_error` — a failed bind changes no instance.
* `Session.execute_cases` — an operation is skipped, or the log stays as it is.
* `Session.skipped_binds_have_no_effect` — the run without the binds it skipped.
-/

namespace Ontogram

namespace Workshop

variable {w : Workshop} {id parentId childId : String}

/-! ## The elements with instances -/

/-- The elements that have an instance, in the order of the instances. -/
def holders (w : Workshop) : List String :=
  w.instances.map Prod.fst

theorem holders_put (w : Workshop) (id : String) (e : Instance) :
    (w.put id e).holders = w.holders := by
  unfold holders put
  rw [List.map_map]
  refine List.map_congr_left fun f _ => ?_
  by_cases hf : f.1 = id <;> simp [hf]

theorem holders_change (w : Workshop) (id : String) (f : Instance → Outcome Instance) :
    (w.change id f).1.holders = w.holders := by
  unfold change
  split
  · rfl
  · exact holders_put w id _

theorem holders_bind (w : Workshop) (parentId childId : String) :
    (w.bind parentId childId).1.holders = w.holders := by
  rcases w.bind_cases parentId childId with ⟨error, hb, -⟩ | ⟨parent, child, -, -, -, hb⟩
  · rw [hb]
  · rw [hb]
    exact (holders_put _ _ _).trans (holders_put _ _ _)

/-! ## Binds that fail -/

/-- Putting an instance back where it is changes nothing. -/
theorem agree_put_self {e : Instance} (ids : List String) (h : w.get? id = some e) :
    Agree ids (w.put id e) w where
  get? := by
    intro x _
    rw [get?_put]
    by_cases hx : x = id
    · simp [hx, h]
    · simp [hx]
  missing := fun _ _ => rfl

/-- **A failed bind changes no instance.** -/
theorem agree_bind_of_error {error : CompileError} (ids : List String)
    (hf : (w.bind parentId childId).2 = some error) :
    Agree ids (w.bind parentId childId).1 w := by
  rcases w.bind_cases parentId childId with ⟨_, hb, -⟩ | ⟨parent, child, hne, hp, hc, hb⟩
  · rw [hb]
    exact Agree.refl ids w
  · rw [hb] at hf ⊢
    obtain ⟨cause, hcause, -⟩ := Option.map_eq_some_iff.1 hf
    simp only [Instance.bind_of_error hcause]
    refine (agree_put_self ids ?_).trans (agree_put_self ids hp)
    rw [get?_put, if_neg (Ne.symm hne)]
    exact hc

end Workshop

/-! ## Single operations -/

namespace Progress

variable {w : Workshop} {op : PlannedOperation}

/-- What a step does to the instances if it leaves the log alone. -/
def Quiet (w : Workshop) (step : Progress → Progress × Option CompileError) : Prop :=
  ∃ w' error?, w'.holders = w.holders ∧ ∀ log, step ⟨w, log⟩ = (⟨w', log⟩, error?)

theorem quiet_change (w : Workshop) (id : String) (f : Instance → Outcome Instance) :
    Quiet w fun p => p.continueWith (p.workshop.change id f) :=
  ⟨(w.change id f).1, (w.change id f).2, Workshop.holders_change w id f, fun _ => rfl⟩

theorem quiet_failed (w : Workshop) (error : CompileError) : Quiet w fun p => (p, some error) :=
  ⟨w, some error, rfl, fun _ => rfl⟩

theorem quiet_adoptFrom (template : Except TemplateError TermGraph) (w : Workshop)
    (op : PlannedOperation) : Quiet w fun p => p.adoptFrom template op := by
  cases template with
  | error cause => exact quiet_failed w _
  | ok template => exact quiet_change w _ _

theorem quiet_define (w : Workshop) (op : PlannedOperation) : Quiet w fun p => p.define op := by
  unfold define
  cases Label.Binding.parse op.child with
  | error cause => exact quiet_failed w _
  | ok d => exact quiet_change w _ _

theorem quiet_linkFrom (kinds : RelationKinds) (template : Except TemplateError TermGraph)
    (w : Workshop) (op : PlannedOperation) : Quiet w fun p => p.linkFrom kinds template op := by
  cases template with
  | error cause => exact quiet_failed w _
  | ok template => exact quiet_change w _ _

/-- Says that a record is that of an operation: of a bind that found no path. -/
structure IsRecordOf (x : SkippedBinding) (op : PlannedOperation) : Prop where
  kind : op.kind = .bind
  relId : x.relId = op.relId
  parentId : x.parentId = op.parentId
  childId : x.childId = op.childId
  reason : ∃ parent child source target,
    x.reason = (InstanceError.structuralPath parent child source target).message

/-- A step skips a bind: no instance changes, and the log has one record more. -/
def Skips (w : Workshop) (op : PlannedOperation)
    (step : Progress → Progress × Option CompileError) : Prop :=
  ∃ w' x, IsRecordOf x op ∧ w'.holders = w.holders ∧ (∀ ids, Workshop.Agree ids w' w) ∧
    ∀ log, step ⟨w, log⟩ = (⟨w', log ++ [x]⟩, none)

/-- A bind is skipped, or it leaves the log alone. -/
theorem skips_or_quiet_bind (w : Workshop) {op : PlannedOperation} (hkind : op.kind = .bind) :
    Skips w op (fun p => p.bind op) ∨ Quiet w fun p => p.bind op := by
  have hholders := Workshop.holders_bind w op.parentId op.childId
  have hfail : ∀ error ids, (w.bind op.parentId op.childId).2 = some error →
      Workshop.Agree ids (w.bind op.parentId op.childId).1 w :=
    fun _ ids => Workshop.agree_bind_of_error ids
  unfold Skips Quiet bind
  simp only
  cases hb : w.bind op.parentId op.childId with
  | mk w' error? =>
    rw [hb] at hholders hfail
    split
    · next heq =>
      cases heq
      exact Or.inl ⟨w', _, ⟨hkind, rfl, rfl, rfl, _, _, _, _, rfl⟩, hholders,
        fun ids => hfail _ ids rfl, fun _ => rfl⟩
    · exact Or.inr ⟨w', error?, hholders, fun _ => rfl⟩

/-- **An operation is a bind that is skipped, or it leaves the log alone.** -/
theorem skips_or_quiet_execute (library : Library) (settings : Settings) (w : Workshop)
    (op : PlannedOperation) :
    Skips w op (fun p => execute library settings p op) ∨
      Quiet w fun p => execute library settings p op := by
  unfold execute
  cases hkind : op.kind with
  | bind => exact skips_or_quiet_bind w hkind
  | adopt => exact Or.inr (quiet_adoptFrom _ w op)
  | define =>
    right
    simp only
    exact quiet_define w op
  | link => exact Or.inr (quiet_linkFrom _ _ w op)
  | place => exact Or.inr ⟨w, none, rfl, fun _ => rfl⟩
  | other => exact Or.inr ⟨w, none, rfl, fun _ => rfl⟩

end Progress

/-! ## Runs with the templates at hand -/

namespace Session

open Progress

variable {library : Library} {settings : Settings} {references : References}
  {w v : Workshop} {op : PlannedOperation} {ops : List PlannedOperation} {ids : List String}

/-- The templates at hand after an operation, and what it does to the progress. -/
def stepOf (library : Library) (settings : Settings) (references : References)
    (op : PlannedOperation) : References × (Progress → Progress × Option CompileError) :=
  match op.kind with
  | .adopt =>
    let (references, template) := references.fetch library settings.adoptTemplate
    (references, fun p => p.adoptFrom template op)
  | .link =>
    let (references, template) := references.fetch library settings.linkTemplate
    (references, fun p => p.linkFrom settings.kinds template op)
  | _ => (references, fun p => Progress.execute library settings p op)

theorem execute_eq_stepOf (library : Library) (settings : Settings) (references : References)
    (p : Progress) (op : PlannedOperation) :
    execute library settings ⟨references, p⟩ op =
      resume (stepOf library settings references op).1
        ((stepOf library settings references op).2 p) := by
  unfold execute stepOf
  cases op.kind <;> rfl

/-- With the templates at hand, too, an operation is a bind that is skipped, or it leaves the log
alone. -/
theorem skips_or_quiet (library : Library) (settings : Settings) (references : References)
    (w : Workshop) (op : PlannedOperation) :
    Skips w op (stepOf library settings references op).2 ∨
      Quiet w (stepOf library settings references op).2 := by
  unfold stepOf
  split
  · exact Or.inr (quiet_adoptFrom _ w op)
  · exact Or.inr (quiet_linkFrom _ _ w op)
  · exact skips_or_quiet_execute library settings w op

/-- An operation does the same to two states that agree on its ends. -/
theorem agree_stepOf (library : Library) (settings : Settings) (references : References)
    {p q : Progress} (h : Progress.Agree ids p q) (hp : op.parentId ∈ ids) (hc : op.childId ∈ ids) :
    Progress.Agree ids ((stepOf library settings references op).2 p).1
        ((stepOf library settings references op).2 q).1 ∧
      ((stepOf library settings references op).2 p).2 =
        ((stepOf library settings references op).2 q).2 := by
  unfold stepOf
  split
  · exact h.adoptFrom hp _
  · exact h.linkFrom hp _ _
  · exact h.execute library settings hp hc

/-- An operation that leaves the log alone does the same to instances that are the same everywhere,
whatever the other log is. -/
theorem exists_execute_alike {s t : Session} {error? : Option CompileError}
    (href : t.references = s.references)
    (h : ∀ ids, Workshop.Agree ids t.progress.workshop s.progress.workshop)
    (hstep : ∀ log, (stepOf library settings s.references op).2 ⟨s.progress.workshop, log⟩ =
      (⟨w, log⟩, error?)) :
    ∃ v, (∀ ids, Workshop.Agree ids v w) ∧ execute library settings t op =
      (⟨(stepOf library settings s.references op).1, ⟨v, t.progress.skipped⟩⟩, error?) := by
  have hall : ∀ ids, Progress.Agree (op.parentId :: op.childId :: ids)
      ((stepOf library settings s.references op).2 t.progress).1 ⟨w, t.progress.skipped⟩ ∧
      ((stepOf library settings s.references op).2 t.progress).2 = error? := by
    intro ids
    have hsame : Progress.Agree (op.parentId :: op.childId :: ids) t.progress
        ⟨s.progress.workshop, t.progress.skipped⟩ := ⟨h _, rfl⟩
    have hagree := agree_stepOf library settings s.references hsame List.mem_cons_self
      (List.mem_cons_of_mem _ List.mem_cons_self)
    rwa [hstep] at hagree
  have ht : execute library settings t op = resume (stepOf library settings s.references op).1
      ((stepOf library settings s.references op).2 t.progress) := by
    rw [← href]
    exact execute_eq_stepOf library settings t.references t.progress op
  obtain ⟨⟨-, hskipped⟩, herror⟩ := hall []
  refine ⟨_, fun ids => (hall ids).1.workshop.mono (by simp), ?_⟩
  rw [ht, resume, ← herror, ← hskipped]

/-! ## What a run records -/

/-- The record that an operation adds to the log, if it adds one. -/
def recorded (library : Library) (settings : Settings) (s : Session) (op : PlannedOperation) :
    Option SkippedBinding :=
  (execute library settings s op).1.progress.skipped[s.progress.skipped.length]?

/-- The operations of a run in their order, each with the record it leaves. What is behind a failure
leaves none. -/
def records (library : Library) (settings : Settings) :
    List PlannedOperation → Session → List (PlannedOperation × Option SkippedBinding)
  | [], _ => []
  | op :: ops, s =>
    (op, recorded library settings s op) ::
      match execute library settings s op with
      | (s, none) => records library settings ops s
      | (_, some _) => ops.map fun op => (op, none)

/-- The operations of a run without those that leave a record. -/
def unskipped (library : Library) (settings : Settings) (ops : List PlannedOperation)
    (s : Session) : List PlannedOperation :=
  ((records library settings ops s).filter fun r => r.2.isNone).map Prod.fst

/-- An operation adds its record to the log and changes no instance, or it leaves the log alone. -/
theorem execute_cases (library : Library) (settings : Settings) (s : Session)
    (op : PlannedOperation) :
    (∃ w' x, recorded library settings s op = some x ∧ IsRecordOf x op ∧
      w'.holders = s.progress.workshop.holders ∧
      (∀ ids, Workshop.Agree ids w' s.progress.workshop) ∧
      execute library settings s op =
        (⟨s.references, ⟨w', s.progress.skipped ++ [x]⟩⟩, none)) ∨
    ∃ w' error?, recorded library settings s op = none ∧
      w'.holders = s.progress.workshop.holders ∧
      (∀ log, (stepOf library settings s.references op).2 ⟨s.progress.workshop, log⟩ =
        (⟨w', log⟩, error?)) ∧
      execute library settings s op =
        (⟨(stepOf library settings s.references op).1, ⟨w', s.progress.skipped⟩⟩, error?) := by
  have he := execute_eq_stepOf library settings s.references s.progress op
  unfold recorded
  rcases skips_or_quiet library settings s.references s.progress.workshop op with
    ⟨w', x, hx, hholders, hagree, hstep⟩ | ⟨w', error?, hholders, hstep⟩
  · have hreferences : (stepOf library settings s.references op).1 = s.references := by
      simp [stepOf, hx.kind]
    rw [hstep s.progress.skipped, hreferences] at he
    refine Or.inl ⟨w', x, ?_, hx, hholders, hagree, he⟩
    rw [he]
    simp [resume]
  · rw [hstep s.progress.skipped] at he
    refine Or.inr ⟨w', error?, ?_, hholders, hstep, he⟩
    rw [he]
    simp [resume]

/-- The records of a run are about its operations. -/
theorem map_fst_records (library : Library) (settings : Settings) (ops : List PlannedOperation)
    (s : Session) : (records library settings ops s).map Prod.fst = ops := by
  induction ops generalizing s with
  | nil => rfl
  | cons op ops ih =>
    unfold records
    split
    · simp [ih]
    · simp [Function.comp_def]

/-- Only binds leave a record, each its own. -/
theorem isRecordOf_of_mem_records {x : SkippedBinding} {s : Session}
    (h : (op, some x) ∈ records library settings ops s) : IsRecordOf x op := by
  induction ops generalizing s with
  | nil => exact absurd h List.not_mem_nil
  | cons o ops ih =>
    unfold records at h
    rcases List.mem_cons.1 h with h | h
    · obtain ⟨rfl, hx⟩ := Prod.mk.inj h
      rcases execute_cases library settings s op with ⟨_, y, hy, hrecord, -⟩ | ⟨_, _, hnone, -⟩
      · rw [hy] at hx
        exact Option.some.inj hx ▸ hrecord
      · rw [hnone] at hx
        cases hx
    · split at h
      · exact ih h
      · simp at h

/-- **The log of a run has its records, in the order of the operations.** -/
theorem skipped_executeAll (library : Library) (settings : Settings) (ops : List PlannedOperation)
    (s : Session) :
    (executeAll library settings ops s).1.progress.skipped =
      s.progress.skipped ++ (records library settings ops s).filterMap Prod.snd := by
  induction ops generalizing s with
  | nil => simp [executeAll, records]
  | cons op ops ih =>
    unfold executeAll records
    rcases execute_cases library settings s op with
      ⟨w', x, hx, -, -, -, he⟩ | ⟨w', error?, hnone, -, -, he⟩
    · simp [he, hx, ih]
    · cases error? with
      | none => simp [he, hnone, ih]
      | some error => simp [he, hnone, List.filterMap_map]

/-- **No run adds an instance or loses one**, nor does it forget why one is missing. -/
theorem holders_executeAll (library : Library) (settings : Settings) (ops : List PlannedOperation)
    (s : Session) :
    (executeAll library settings ops s).1.progress.workshop.holders =
      s.progress.workshop.holders := by
  induction ops generalizing s with
  | nil => rfl
  | cons op ops ih =>
    unfold executeAll
    rcases execute_cases library settings s op with
      ⟨w', x, -, -, hholders, -, he⟩ | ⟨w', error?, -, hholders, -, he⟩
    · simp only [he, ih, hholders]
    · cases error? with
      | none => simp only [he, ih, hholders]
      | some error => simp only [he, hholders]

/-! ## The run without the skipped binds -/

theorem executeAll_cons_of_done {s s' : Session}
    (h : execute library settings s op = (s', none)) (ops : List PlannedOperation) :
    executeAll library settings (op :: ops) s = executeAll library settings ops s' := by
  rw [executeAll, h]

theorem executeAll_cons_of_failed {s s' : Session} {error : CompileError}
    (h : execute library settings s op = (s', some error)) (ops : List PlannedOperation) :
    executeAll library settings (op :: ops) s = (s', some error) := by
  rw [executeAll, h]

/-- The run without the skipped binds, from instances that are the same and with any log, goes
through the same templates and instances and leaves its log alone. -/
theorem executeAll_unskipped (library : Library) (settings : Settings)
    (ops : List PlannedOperation) {s t : Session} (href : t.references = s.references)
    (h : ∀ ids, Workshop.Agree ids t.progress.workshop s.progress.workshop) :
    let r := executeAll library settings ops s
    let r' := executeAll library settings (unskipped library settings ops s) t
    r'.1.references = r.1.references ∧
    (∀ ids, Workshop.Agree ids r'.1.progress.workshop r.1.progress.workshop) ∧
    r'.1.progress.skipped = t.progress.skipped ∧ r'.2 = r.2 := by
  induction ops generalizing s t with
  | nil => exact ⟨href, h, rfl, rfl⟩
  | cons op ops ih =>
    rcases execute_cases library settings s op with
      ⟨w', x, hx, -, -, hagree, he⟩ | ⟨w', error?, hnone, -, hstep, he⟩
    · -- The bind is skipped, and the other run does without it.
      have hun : unskipped library settings (op :: ops) s =
          unskipped library settings ops ⟨s.references, ⟨w', s.progress.skipped ++ [x]⟩⟩ := by
        simp [unskipped, records, hx, he]
      rw [hun, executeAll_cons_of_done he]
      exact ih href fun ids => (h ids).trans (hagree ids).symm
    · -- Both runs take the step, each with its own log.
      obtain ⟨v, hagree, ht⟩ := exists_execute_alike href h hstep
      cases error? with
      | none =>
        have hun : unskipped library settings (op :: ops) s = op ::
            unskipped library settings ops ⟨(stepOf library settings s.references op).1,
              ⟨w', s.progress.skipped⟩⟩ := by
          simp [unskipped, records, hnone, he]
        rw [hun, executeAll_cons_of_done he, executeAll_cons_of_done ht]
        exact ih rfl hagree
      | some error =>
        have hun : unskipped library settings (op :: ops) s = op :: ops := by
          simp [unskipped, records, hnone, he, List.filter_map, Function.comp_def]
        rw [hun, executeAll_cons_of_failed he, executeAll_cons_of_failed ht]
        exact ⟨rfl, hagree, rfl, rfl⟩

/--
**Skipped binds have no effect.**

A run records some of its binds, each under its own ids, and the records are the end of its log in
the order of the operations. The run of the operations without these ends with the same templates,
the same instances and the same error or success, and skips nothing. No run, however it ends, gives
an element an instance or takes one away.
-/
theorem skipped_binds_have_no_effect (library : Library) (settings : Settings)
    (ops : List PlannedOperation) (s : Session) :
    let log := records library settings ops s
    let r := executeAll library settings ops s
    let r' := executeAll library settings (unskipped library settings ops s) s
    log.map Prod.fst = ops ∧
    (∀ op x, (op, some x) ∈ log → IsRecordOf x op) ∧
    r.1.progress.skipped = s.progress.skipped ++ log.filterMap Prod.snd ∧
    r'.1.references = r.1.references ∧
    (∀ id, r'.1.progress.workshop.get id = r.1.progress.workshop.get id) ∧
    r'.1.progress.skipped = s.progress.skipped ∧ r'.2 = r.2 ∧
    r.1.progress.workshop.holders = s.progress.workshop.holders := by
  intro log r r'
  obtain ⟨href, hagree, hskipped, herror⟩ :=
    executeAll_unskipped library settings ops (s := s) (t := s) rfl fun _ => .refl _ _
  refine ⟨map_fst_records library settings ops s, fun op x => isRecordOf_of_mem_records,
    skipped_executeAll library settings ops s, href, fun id => ?_, hskipped, herror,
    holders_executeAll library settings ops s⟩
  exact (hagree [id]).get (by simp)

end Session

end Ontogram
