import Ontogram.Proofs.Diagram.Bonds
import Ontogram.Proofs.Diagram.Counterparts

/-!
# What an ontology has of its root and of its relations

A component emits the table of the graph of its root once its relations are stitched. A stitch
unites that graph with those of the ends and relates their names, and both add to it. So whatever the
root relates after the last operation is in the table, and so are the ends of each relation, whatever
the stitches after it add. An instance has one name, from when it is made to the end of the
compilation.

* `name?_of_mem_starts` — names through the components of a diagram.
* `hasRows_operated` — the table has what the operations left in the graph of the root.
* `ontology_has_relations_and_root` — all of it, for each component that gives an ontology.
-/

namespace Ontogram

open ExecutionPlan

variable {library : Library} {settings : Settings}

namespace ComponentPlan

variable {c : ComponentPlan} {w : Workshop} {x : CompiledOntology}

/-- A component changes no name, however it ends. -/
theorem name?_compile (c : ComponentPlan) (w : Workshop) (id : String) :
    (c.compile library settings w).workshop.name? id = w.name? id := by
  obtain ⟨hrun, hend⟩ := c.run_moments library settings w
  rw [← hend, hrun.name?_endOf]

/-- **The table of an ontology has what the operations left in the graph of the root.** -/
theorem hasRows_operated (hx : (c.compile library settings w).ontology = .ok x) :
    ∃ root, (c.operated library settings w).get? x.rootId = some root ∧ x.HasRows root.graph := by
  obtain ⟨-, hemit⟩ := stitchAll_operated (rootId_of_compile_ok hx) hx
  obtain ⟨stitched, hstitched, hemitted⟩ := Workshop.emitOntology_eq_ok.1 hemit
  obtain ⟨root, hroot, hkept⟩ := retains_operated hx hstitched
  refine ⟨root, hroot, fun row hrow => ?_⟩
  obtain ⟨r, hr, hparent, hchild, -⟩ :=
    hkept.exists_row root.graph.valid stitched.graph.valid hrow
  rw [hemitted]
  exact ⟨r, hr, hparent, hchild⟩

/-- **The table of an ontology has a row for each relation of its component**, between the names of
the ends. -/
theorem exists_row_of_mem_secondary (hx : (c.compile library settings w).ontology = .ok x)
    {r : SecondaryRelation} (hr : r ∈ c.secondary) :
    ∃ row ∈ x.relationships, w.name? r.parentId = some row.parent ∧
      w.name? r.childId = some row.child := by
  obtain ⟨hw, hemit⟩ := stitchAll_operated (rootId_of_compile_ok hx) hx
  obtain ⟨row, hrow, hparent, hchild⟩ := (Workshop.stitched_of_mem hw hr).exists_row hw hemit
  rw [name?_compile] at hparent hchild
  exact ⟨row, hrow, hparent, hchild⟩

end ComponentPlan

/-! ## Components in turn -/

/-- What holds of the instances at first and is kept by every component holds when a component
starts. -/
theorem induction_starts {cs : List ComponentPlan} {w : Workshop} {P : Workshop → Prop}
    (hw : P w) (hstep : ∀ c v, P v → P (ComponentPlan.compile library settings c v).workshop)
    {s : ComponentPlan × Workshop} (hs : s ∈ starts library settings cs w) : P s.2 := by
  induction cs generalizing w with
  | nil => cases hs
  | cons c cs ih =>
    rcases List.mem_cons.1 hs with rfl | hs
    · exact hw
    · exact ih (hstep c w hw) hs

/-- An instance has one name through the components of a diagram. -/
theorem name?_of_mem_starts {cs : List ComponentPlan} {w : Workshop}
    {s : ComponentPlan × Workshop} (hs : s ∈ starts library settings cs w) (id : String) :
    s.2.name? id = w.name? id :=
  induction_starts (P := fun v => v.name? id = w.name? id) rfl
    (fun c v hv => (c.name?_compile v id).trans hv) hs

/--
**What an ontology has of its root and of its relations.**

A component that compiles gives an ontology of the diagram. For each of its secondary relations
there is a row from the name of the parent to that of the child. And every pair that the graph of
the root related when the operations were executed has a row.
-/
theorem ontology_has_relations_and_root (library : Library) (settings : Settings)
    (drawing : Drawing) (ids : IdSource) {s : ComponentPlan × Workshop}
    (hs : s ∈ diagramStarts library settings drawing ids) {x : CompiledOntology}
    (hx : (s.1.compile library settings s.2).ontology = .ok x) :
    let made := Workshop.create library (OperationGraph.build drawing settings ids).1
    x ∈ (compile library settings drawing ids).ontologies ∧ s.1.rootId = some x.rootId ∧
    (∀ r ∈ s.1.secondary, ∃ row ∈ x.relationships,
      made.name? r.parentId = some row.parent ∧ made.name? r.childId = some row.child) ∧
    ∃ root, (s.1.operated library settings s.2).get? x.rootId = some root ∧
      x.HasRows root.graph := by
  intro made
  refine ⟨?_, ComponentPlan.rootId_of_compile_ok hx, fun r hr => ?_,
    ComponentPlan.hasRows_operated hx⟩
  · rw [ontologies_compile, mem_ontologiesOf]
    exact ⟨s, hs, hx⟩
  · obtain ⟨row, hrow, hparent, hchild⟩ := ComponentPlan.exists_row_of_mem_secondary hx hr
    rw [name?_of_mem_starts hs] at hparent hchild
    exact ⟨row, hrow, hparent, hchild⟩

/-- An element that defines a variable and is placed: its ontology has both. -/
theorem ontology_has_relations_and_root_definedLater :
    let run := diagramStarts variableTemplate .standard definedLater (.ofHeader "gen")
    ∃ s ∈ run, ∃ x, (s.1.compile variableTemplate .standard s.2).ontology = .ok x ∧
      (∃ row ∈ x.relationships, row.parent = "A" ∧ row.child = "B") ∧
      ∃ row ∈ x.relationships, row.parent = "A" ∧ row.child = "1" := by
  intro run
  let made := Workshop.create variableTemplate
    (OperationGraph.build definedLater .standard (.ofHeader "gen")).1
  have hnames : made.name? "a" = some "A" ∧ made.name? "b" = some "B" := by decide +kernel
  have hrun : ∃ s ∈ run, ⟨"r3", "a", "b", "mds:place"⟩ ∈ s.1.secondary ∧
      s.1.rootId = some "a" ∧
      (s.1.compile variableTemplate .standard s.2).ontology?.isSome = true ∧
      ((s.1.operated variableTemplate .standard s.2).get? "a").map (fun e => e.graph.rows) =
        some [⟨"A", "1", "has", false⟩] := by decide +kernel
  obtain ⟨s, hs, hplace, hroot, hontology, hrows⟩ := hrun
  obtain ⟨x, hx⟩ := Option.isSome_iff_exists.1 hontology
  have hx := ComponentResult.ontology?_eq_some.1 hx
  obtain ⟨-, hrootId, hrelations, root, hoperated, hkept⟩ :=
    ontology_has_relations_and_root _ _ _ _ hs hx
  obtain ⟨row, hrow, hparent, hchild⟩ := hrelations _ hplace
  refine ⟨s, hs, x, hx, ⟨row, hrow, ?_, ?_⟩, ?_⟩
  · exact Option.some.inj (hparent.symm.trans hnames.1)
  · exact Option.some.inj (hchild.symm.trans hnames.2)
  · rw [← Option.some.inj (hroot.symm.trans hrootId)] at hoperated
    rw [hoperated] at hrows
    have hgraph : root.graph.rows = [⟨"A", "1", "has", false⟩] := Option.some.inj hrows
    exact hkept ⟨"A", "1", "has", false⟩ (by rw [hgraph]; decide)

end Ontogram
