import Ontogram.Proofs.Diagram.Authoring
import Ontogram.Proofs.Diagram.Ontologies

/-!
# What a component needs instances of

A bind takes the instances of both ends and another operation that of its parent, a stitch takes
those of the ends of its relation and of the root, and the ontology is read off the root. Each of
them fails if an instance is missing, and only then for the reason why it is. No step makes an
instance or loses one, so what is missing at any moment of a compilation was missing from the start.

* `Workshop.Takes` — what it means that a step takes the instances of some elements.
* `Progress.takes_execute`, `Workshop.takes_stitch` — operations and stitches.
* `ComponentPlan.takes_compile` — a component takes the instances of all that it needs.
* `compiled_needs_have_instances` — the same for the components of a diagram.
-/

namespace Ontogram

variable {library : Library} {settings : Settings}

/-- The elements whose instances an operation needs. -/
def PlannedOperation.needs (op : PlannedOperation) : List String :=
  match op.kind with
  | .bind => [op.parentId, op.childId]
  | .adopt | .define | .link => [op.parentId]
  | .place | .other => []

/-- The ends of a secondary relation. -/
def SecondaryRelation.ends (r : SecondaryRelation) : List String :=
  [r.parentId, r.childId]

/-- The elements whose instances a component needs: its root, those of its operations, and the ends
of its secondary relations. -/
def ComponentPlan.needs (c : ComponentPlan) : List String :=
  c.rootId.toList ++ c.operations.flatMap PlannedOperation.needs ++
    c.secondary.flatMap SecondaryRelation.ends

namespace Workshop

variable {w w' : Workshop} {id parentId childId rootId : String} {ids ids' : List String}
  {error : CompileError}

/-! ## What is lacking -/

/-- Why there is no instance of an element, if there is none. -/
def lack? (w : Workshop) (id : String) : Option CompileError :=
  if (w.get? id).isSome then none else some (w.missing id)

theorem lack?_eq_none : w.lack? id = none ↔ ∃ e, w.get? id = some e := by
  rw [lack?, ← Option.isSome_iff_exists]
  cases (w.get? id).isSome <;> simp

theorem lack?_of_get? {e : Instance} (h : w.get? id = some e) : w.lack? id = none :=
  lack?_eq_none.2 ⟨e, h⟩

theorem lack?_of_get_ok {e : Instance} (h : w.get id = .ok e) : w.lack? id = none :=
  lack?_of_get? (get_eq_ok.1 h)

theorem lack?_of_get_error (h : w.get id = .error error) : w.lack? id = some error := by
  unfold get at h
  split at h
  · cases h
  · next hnone =>
    rw [lack?, hnone]
    exact congrArg some (Except.error.inj h)

/-- Replacing an instance makes none and loses none. -/
theorem lack?_put (w : Workshop) (id : String) (e : Instance) : (w.put id e).lack? = w.lack? := by
  funext x
  have hsome : ((w.put id e).get? x).isSome = (w.get? x).isSome := by
    rw [get?_put]
    split
    · exact Option.isSome_map
    · rfl
  unfold lack?
  rw [hsome]
  rfl

/-- An element is lacking because of itself. -/
theorem eq_of_lack? {x : String} {cause : InstanceError}
    (h : w.lack? id = some (.instantiation x cause)) : x = id := by
  unfold lack? missing at h
  split at h
  · cases h
  · split at h
    · cases h
      rfl
    · cases h

/-- No operation on instances is why one is missing. -/
theorem lack?_ne_ontology {cause : InstanceError} : w.lack? id ≠ some (.ontology cause) := by
  unfold lack? missing
  grind

/-! ## Steps -/

/-- Says that a step from some instances takes those of some elements. It makes no instance and
loses none; it succeeds only if they are all there; and if it fails because of an element that could
not be instantiated, this is one of them. -/
structure Takes (ids : List String) (w : Workshop) (r : Workshop × Option CompileError) : Prop where
  lack? : r.1.lack? = w.lack?
  done : r.2 = none → ∀ id ∈ ids, w.lack? id = none
  cause : ∀ id cause, r.2 = some (.instantiation id cause) →
    id ∈ ids ∧ w.lack? id = some (.instantiation id cause)

/-- A step that needs nothing. -/
theorem Takes.nothing (w : Workshop) : Takes [] w (w, none) :=
  ⟨rfl, fun _ _ hid => absurd hid List.not_mem_nil, nofun⟩

/-- A step that ends as an instance is missing. -/
theorem Takes.missing (hid : id ∈ ids) (h : w.get id = .error error) :
    Takes ids w (w, some error) := by
  refine ⟨rfl, nofun, fun x cause he => ?_⟩
  have hlack := (lack?_of_get_error h).trans he
  obtain rfl := eq_of_lack? hlack
  exact ⟨hid, hlack⟩

/-- A step that fails for another reason than a missing instance. -/
theorem Takes.fail (ids : List String) (hw : w'.lack? = w.lack?)
    (h : ∀ id cause, error ≠ .instantiation id cause) : Takes ids w (w', some error) :=
  ⟨hw, nofun, fun id cause he => absurd (Option.some.inj he) (h id cause)⟩

/-- A step that finds all that it needs, and may fail for another reason. -/
theorem Takes.found (hw : w'.lack? = w.lack?) (hids : ∀ id ∈ ids, w.lack? id = none)
    (o? : Option InstanceError) : Takes ids w (w', o?.map .ontology) := by
  refine ⟨hw, fun _ => hids, fun id cause he => ?_⟩
  obtain ⟨e, -, he⟩ := Option.map_eq_some_iff.1 he
  cases he

/-- A step that takes the instances of some elements takes those of the same in another order. -/
theorem Takes.congr {r : Workshop × Option CompileError} (h : Takes ids w r)
    (hids : ∀ id, id ∈ ids ↔ id ∈ ids') : Takes ids' w r :=
  ⟨h.lack?, fun hd id hid => h.done hd id ((hids id).2 hid),
    fun id cause hc => (h.cause id cause hc).imp_left (hids id).1⟩

/-- A step that fails does not get to what comes after it. -/
theorem Takes.stop (h : Takes ids w (w', some error)) (ids' : List String) :
    Takes (ids ++ ids') w (w', some error) :=
  ⟨h.lack?, nofun, fun id cause hc => (h.cause id cause hc).imp_left (List.mem_append_left ids')⟩

/-- **What comes after a step that succeeds** takes what it needs from instances of the same
elements. -/
theorem Takes.andThen {r : Workshop × Option CompileError} (h : Takes ids w (w', none))
    (h' : Takes ids' w' r) : Takes (ids ++ ids') w r := by
  have hlack : w'.lack? = w.lack? := h.lack?
  refine ⟨h'.lack?.trans hlack, fun hd id hid => ?_, fun id cause hc => ?_⟩
  · rcases List.mem_append.1 hid with hid | hid
    · exact h.done rfl id hid
    · rw [← hlack]
      exact h'.done hd id hid
  · obtain ⟨hid, hcause⟩ := h'.cause id cause hc
    rw [hlack] at hcause
    exact ⟨List.mem_append_right ids hid, hcause⟩

/-- An operation on an instance takes that instance. -/
theorem takes_change (w : Workshop) (id : String) (f : Instance → Outcome Instance) :
    Takes [id] w (w.change id f) := by
  unfold change
  split
  · next h => exact .missing List.mem_cons_self h
  · next e h =>
    exact .found (lack?_put w id _) (by simp [lack?_of_get_ok h]) _

/-- A bind takes both ends. -/
theorem takes_bind (w : Workshop) (parentId childId : String) :
    Takes [parentId, childId] w (w.bind parentId childId) := by
  rcases w.bind_cases parentId childId with
    ⟨error, hb, ⟨-, rfl⟩ | ⟨id, hid, hget⟩⟩ | ⟨parent, child, -, hp, hc, hb⟩
  · rw [hb]
    exact .fail _ rfl nofun
  · rw [hb]
    exact .missing hid hget
  · rw [hb]
    exact .found ((lack?_put _ childId _).trans (lack?_put w parentId _))
      (by simp [lack?_of_get? hp, lack?_of_get? hc]) _

/-- A bind that fails over the instances had found both. -/
theorem lack?_of_bind {cause : InstanceError}
    (h : (w.bind parentId childId).2 = some (.ontology cause)) :
    ∀ id ∈ [parentId, childId], w.lack? id = none := by
  rcases w.bind_cases parentId childId with
    ⟨error, hb, ⟨-, rfl⟩ | ⟨id, -, hget⟩⟩ | ⟨parent, child, -, hp, hc, -⟩
  · rw [hb] at h
    cases h
  · rw [hb] at h
    obtain rfl := Option.some.inj h
    exact absurd (lack?_of_get_error hget) lack?_ne_ontology
  · simp [lack?_of_get? hp, lack?_of_get? hc]

/-- **A stitch takes the ends of its relation and the root.** -/
theorem takes_stitch (w : Workshop) (rootId : String) (r : SecondaryRelation) :
    Takes (r.ends ++ [rootId]) w (w.stitch rootId r) := by
  unfold stitch SecondaryRelation.ends
  split
  · next h => exact .missing (by simp) h
  · next h => exact .missing (by simp) h
  · next h => exact .missing (by simp) h
  · next parent child root hp hc hr =>
    refine .found (lack?_put w rootId _) ?_ none
    simp [lack?_of_get_ok hp, lack?_of_get_ok hc, lack?_of_get_ok hr]

/-- **Stitches in turn take the ends of their relations and the root.** -/
theorem takes_stitchAll (rootId : String) (rs : List SecondaryRelation) (w : Workshop) :
    Takes (rs.flatMap fun r => r.ends ++ [rootId]) w (stitchAll rootId rs w) := by
  induction rs generalizing w with
  | nil => exact .nothing w
  | cons r rs ih =>
    have hstep := takes_stitch w rootId r
    unfold stitchAll
    rw [List.flatMap_cons]
    rcases hs : w.stitch rootId r with ⟨w', error?⟩
    rw [hs] at hstep
    cases error? with
    | none => exact hstep.andThen (ih w')
    | some error => exact hstep.stop _

end Workshop

open Workshop (Takes)

/-! ## Operations -/

namespace Progress

/-- A bind takes both ends, also if it is skipped. -/
theorem takes_bind (p : Progress) (op : PlannedOperation) :
    Takes [op.parentId, op.childId] p.workshop ((p.bind op).1.workshop, (p.bind op).2) := by
  have hbind := p.workshop.takes_bind op.parentId op.childId
  unfold bind
  split
  · next he =>
    -- It is skipped for want of a path, and so had found both ends.
    rw [he] at hbind
    have hfound : ∀ id ∈ [op.parentId, op.childId], p.workshop.lack? id = none :=
      Workshop.lack?_of_bind (by rw [he])
    exact .found hbind.lack? hfound none
  · exact hbind

/-- **An operation takes what it needs.** -/
theorem takes_execute (library : Library) (settings : Settings) (p : Progress)
    (op : PlannedOperation) : Takes op.needs p.workshop
      ((execute library settings p op).1.workshop, (execute library settings p op).2) := by
  unfold execute PlannedOperation.needs
  cases op.kind with
  | bind => exact p.takes_bind op
  | adopt =>
    simp only
    unfold adopt adoptFrom
    split
    · exact .fail _ rfl nofun
    · exact p.workshop.takes_change op.parentId _
  | define =>
    simp only
    unfold define
    split
    · exact .fail _ rfl nofun
    · exact p.workshop.takes_change op.parentId _
  | link =>
    simp only
    unfold link linkFrom
    simp only
    split
    · exact .fail _ rfl nofun
    · exact p.workshop.takes_change op.parentId _
  | place => exact .nothing _
  | other => exact .nothing _

/-- **Operations in turn take what they need.** -/
theorem takes_executeAll (library : Library) (settings : Settings) (ops : List PlannedOperation)
    (p : Progress) : Takes (ops.flatMap PlannedOperation.needs) p.workshop
      ((executeAll library settings ops p).1.workshop, (executeAll library settings ops p).2) := by
  induction ops generalizing p with
  | nil => exact .nothing p.workshop
  | cons op ops ih =>
    have hstep := takes_execute library settings p op
    unfold executeAll
    rw [List.flatMap_cons]
    rcases hs : execute library settings p op with ⟨q, error?⟩
    rw [hs] at hstep
    cases error? with
    | none => exact hstep.andThen (ih q)
    | some error => exact hstep.stop _

end Progress

/-! ## Components -/

/-- Why a component gave no ontology. -/
def ComponentResult.error? (r : ComponentResult) : Option CompileError :=
  match r.ontology with
  | .ok _ => none
  | .error error => some error

theorem ComponentResult.error?_eq_none {r : ComponentResult} :
    r.error? = none ↔ ∃ x, r.ontology = .ok x := by
  unfold error?
  cases r.ontology <;> simp

theorem ComponentResult.error?_eq_some {r : ComponentResult} {error : CompileError} :
    r.error? = some error ↔ r.ontology = .error error := by
  unfold error?
  cases r.ontology <;> simp

namespace ComponentPlan

/-- The ontology is read off the root. -/
theorem takes_emitOntology (w : Workshop) (rootId : String) (skipped : List SkippedBinding) :
    Takes [rootId] w (w, (ComponentResult.mk w skipped (w.emitOntology rootId)).error?) := by
  unfold ComponentResult.error? Workshop.emitOntology
  simp only
  cases h : w.get rootId with
  | ok root => exact .found rfl (by simp [Workshop.lack?_of_get_ok h]) none
  | error error => exact .missing List.mem_cons_self h

/-- The stitches of a component, and its ontology, take the ends of its relations and the root. -/
theorem takes_stitches (c : ComponentPlan) (rootId : String) (p : Progress) :
    let r := c.conclude rootId (p, none)
    Takes ((c.secondary.flatMap fun r => r.ends ++ [rootId]) ++ [rootId]) p.workshop
      (r.workshop, r.error?) := by
  have hstitches := Workshop.takes_stitchAll rootId c.secondary p.workshop
  unfold conclude
  simp only
  rcases hs : Workshop.stitchAll rootId c.secondary p.workshop with ⟨w, error?⟩
  rw [hs] at hstitches
  cases error? with
  | none => exact hstitches.andThen (takes_emitOntology w rootId p.skipped)
  | some error => exact hstitches.stop _

/-- **A component takes what it needs.** -/
theorem takes_compile (library : Library) (settings : Settings) (c : ComponentPlan)
    (w : Workshop) :
    let r := c.compile library settings w
    Takes c.needs w (r.workshop, r.error?) := by
  unfold compile
  cases hroot : c.rootId with
  | none => exact .fail _ rfl nofun
  | some rootId =>
    have hneeds : ∀ id, id ∈ c.operations.flatMap PlannedOperation.needs ++
        ((c.secondary.flatMap fun r => r.ends ++ [rootId]) ++ [rootId]) ↔ id ∈ c.needs := by
      intro id
      unfold needs
      rw [hroot]
      simp only [List.mem_append, List.mem_flatMap, List.mem_singleton, Option.toList_some]
      grind
    refine Takes.congr ?_ hneeds
    have hops := Progress.takes_executeAll library settings c.operations ⟨w, []⟩
    simp only
    rcases hp : Progress.executeAll library settings c.operations ⟨w, []⟩ with ⟨p, error?⟩
    rw [hp] at hops
    cases error? with
    | none => exact hops.andThen (c.takes_stitches rootId p)
    | some error => exact hops.stop _

end ComponentPlan

/-! ## Diagrams -/

/-- What lacks an instance lacks it through the components of a diagram. -/
theorem lack?_of_mem_starts {cs : List ComponentPlan} {w : Workshop}
    {s : ComponentPlan × Workshop} (hs : s ∈ starts library settings cs w) :
    s.2.lack? = w.lack? :=
  induction_starts (P := fun v => v.lack? = w.lack?) rfl
    (fun c v hv => (c.takes_compile library settings v).lack?.trans hv) hs

namespace Workshop

variable {o : OperationGraph} {id : String}

/-- An element has an instance if its label makes one. -/
theorem made?_of_lack?_eq_none (ho : o.graph.WellFormed) (h : (create library o).lack? id = none) :
    ∃ e i, o.graph.element? id = some e ∧ made? library e = some (.ok i) := by
  obtain ⟨i, hi⟩ := lack?_eq_none.1 h
  rw [get?_create ho] at hi
  obtain ⟨p, hp, -⟩ := Option.map_eq_some_iff.1 hi
  obtain ⟨e, he, hp⟩ := Option.bind_eq_some_iff.1 hp
  unfold instanceOf? at hp
  split at hp
  · next i hi => exact ⟨e, i, he, hi⟩
  all_goals cases hp

/-- An element could not be instantiated if the template of its label failed. -/
theorem made?_of_lack?_eq_some (ho : o.graph.WellFormed) {cause : InstanceError}
    (h : (create library o).lack? id = some (.instantiation id cause)) :
    ∃ e, o.graph.element? id = some e ∧ made? library e = some (.error cause) := by
  unfold lack? missing at h
  rw [find?_failed_create ho] at h
  split at h
  · cases h
  · split at h
    · next p hp =>
      obtain ⟨e, he, hp⟩ := Option.bind_eq_some_iff.1 hp
      unfold failureOf? at hp
      split at hp
      · next hcause =>
        cases hp
        cases h
        exact ⟨e, he, hcause⟩
      all_goals cases hp
    · cases h

end Workshop

/--
**What a component needs has an instance.**

A component that compiles has a root, and its label makes an instance, as do those of the elements
that its operations and its secondary relations need. A component that is reported for an element
that could not be instantiated needs that element, and the cause is that of its label: no component
is reported for the failure of an element that it does not need.
-/
theorem compiled_needs_have_instances (library : Library) (settings : Settings)
    (drawing : Drawing) (ids : IdSource) {s : ComponentPlan × Workshop}
    (hs : s ∈ diagramStarts library settings drawing ids) :
    let o := (OperationGraph.build drawing settings ids).1
    let r := s.1.compile library settings s.2
    s.1.report r ∈ (compile library settings drawing ids).report.components ∧
    (∀ x, r.ontology = .ok x → s.1.rootId = some x.rootId ∧
      ∀ id ∈ s.1.needs, ∃ e i, o.graph.element? id = some e ∧
        Workshop.made? library e = some (.ok i)) ∧
    ∀ id cause, r.ontology = .error (.instantiation id cause) → id ∈ s.1.needs ∧
      ∃ e, o.graph.element? id = some e ∧ Workshop.made? library e = some (.error cause) := by
  intro o r
  have ho : o.graph.WellFormed := OperationGraph.wellFormed_build drawing settings ids
  have htakes := s.1.takes_compile library settings s.2
  have hlack : s.2.lack? = (Workshop.create library o).lack? := lack?_of_mem_starts hs
  refine ⟨List.mem_map_of_mem (result_mem_of_mem_starts hs),
    fun x hx => ⟨ComponentPlan.rootId_of_compile_ok hx, fun id hid => ?_⟩, fun id cause hc => ?_⟩
  · have hnone := htakes.done (ComponentResult.error?_eq_none.2 ⟨x, hx⟩) id hid
    rw [hlack] at hnone
    exact Workshop.made?_of_lack?_eq_none ho hnone
  · obtain ⟨hid, hcause⟩ := htakes.cause id cause (ComponentResult.error?_eq_some.2 hc)
    rw [hlack] at hcause
    exact ⟨hid, Workshop.made?_of_lack?_eq_some ho hcause⟩

/-- Two elements that define a variable, the second of a template that there is not. -/
def goneTemplate : Drawing :=
  (Drawing.empty.relate "a" "A[T|t_]" "mds:define" "x" "1(v_)").relate
    "b" "B[Gone|t_]" "mds:define" "y" "2(v_)"

/-- The first has its instance, and only the second is reported. -/
theorem compiled_needs_have_instances_goneTemplate :
    let o := (OperationGraph.build goneTemplate .standard (.ofHeader "gen")).1
    let run := diagramStarts variableTemplate .standard goneTemplate (.ofHeader "gen")
    (∃ s ∈ run, s.1.rootId = some "a" ∧
      ∃ e i, o.graph.element? "a" = some e ∧
        Workshop.made? variableTemplate e = some (.ok i)) ∧
    ∃ s ∈ run, s.1.needs = ["b", "b"] ∧
      ∃ e, o.graph.element? "b" = some e ∧
        Workshop.made? variableTemplate e = some (.error (.template (.notFound "Gone"))) := by
  intro o run
  have hfirst : ∃ s ∈ run, s.1.rootId = some "a" ∧ "a" ∈ s.1.needs ∧
      (s.1.compile variableTemplate .standard s.2).ontology?.isSome = true := by decide +kernel
  have hsecond : ∃ s ∈ run, s.1.needs = ["b", "b"] ∧
      (s.1.compile variableTemplate .standard s.2).error? =
        some (.instantiation "b" (.template (.notFound "Gone"))) := by decide +kernel
  obtain ⟨s, hs, hroot, hneeds, hontology⟩ := hfirst
  obtain ⟨t, ht, hneeds', herror⟩ := hsecond
  obtain ⟨x, hx⟩ := Option.isSome_iff_exists.1 hontology
  have hx := ComponentResult.ontology?_eq_some.1 hx
  have herror := ComponentResult.error?_eq_some.1 herror
  have hinstances := (compiled_needs_have_instances _ _ _ _ hs).2.1 x hx
  have hcause := (compiled_needs_have_instances _ _ _ _ ht).2.2 "b" _ herror
  exact ⟨⟨s, hs, hroot, hinstances.2 "a" hneeds⟩, t, ht, hneeds', hcause.2⟩

end Ontogram
