import Ontogram.Proofs.Diagram.Independence
import Ontogram.Proofs.Search.Order
import Ontogram.Proofs.TermGraph.Retained

/-!
# What a stitch sees of another component

A component stitches its secondary relations as soon as its own operations are executed, not after
those of all components. A stitch adds the graphs of the ends that the graph of the root has no term
for, so the graph of an element of another component is added as that component left it if it came
first, and as it was made if it comes later. The rows that are stitched in after it may give its
pairs other relations.

* `rows_of_rowsAfter` — the ontology has what the component finds in the graph of an end.
* `agree_of_precedes`, `agree_of_followed` — what a component finds of one before it and of one
  after it.
* `stitched_graph_has_rows` — what the ontology has of a graph of another component.
* `finished_graphs_can_be_missing` — the three ways in which it may lack what that component made.
-/

namespace Ontogram

open ExecutionPlan

variable {library : Library} {settings : Settings}

/-- Every row of a graph has one of its pair in an ontology. What is added later may have given the
pair another relation. -/
def CompiledOntology.HasRows (x : CompiledOntology) (g : TermGraph) : Prop :=
  ∀ row ∈ g.rows, ∃ r ∈ x.relationships, r.parent = row.parent ∧ r.child = row.child

/-- Every row of a graph is in an ontology. If a later row has the pair of a row, it is enough that
the ontology has the pair. -/
def CompiledOntology.HasRowsBut (x : CompiledOntology) (g : TermGraph) (later : List Row) : Prop :=
  ∀ row ∈ g.rows, ∃ r ∈ x.relationships, r.parent = row.parent ∧ r.child = row.child ∧
    (r = row ∨ ∃ l ∈ later, l.parent = row.parent ∧ l.child = row.child)

/-- An ontology that has a graph has what that graph retains of another. -/
theorem CompiledOntology.HasRowsBut.of_retains {x : CompiledOntology} {g h : TermGraph}
    {before later : List Row} (hx : x.HasRowsBut h later) (hh : h.Retains g.toArena before) :
    x.HasRowsBut g (before ++ later) := by
  intro row hrow
  obtain ⟨row', hrow', hparent, hchild, hkept⟩ := hh.exists_row g.valid h.valid hrow
  obtain ⟨r, hr, hparent', hchild', hkept'⟩ := hx row' hrow'
  refine ⟨r, hr, hparent'.trans hparent, hchild'.trans hchild, ?_⟩
  rcases hkept' with rfl | ⟨l, hl, hp, hc⟩
  · refine hkept.imp_right ?_
    rintro ⟨l, hl, hpair⟩
    exact ⟨l, List.mem_append_left later hl, hpair⟩
  · exact Or.inr ⟨l, List.mem_append_right before hl, hp.trans hparent, hc.trans hchild⟩

namespace Workshop

variable {w w' : Workshop} {rootId id name : String} {r : SecondaryRelation}
  {rs : List SecondaryRelation} {root : Instance} {graph : TermGraph} {later : List Row}

/-! ## The rows of a stitch -/

/-- The rows that are added to a root for an end: those of its graph, unless the root has a term of
its name. -/
def missingRows (root : Instance) (name : String) (graph : TermGraph) : List Row :=
  if root.graph.contains name then [] else graph.rows

/-- The rows that a stitch adds to the graph of the root, in order. -/
def stitchRows (w : Workshop) (rootId : String) (r : SecondaryRelation) : List Row :=
  match w.get? r.parentId, w.get? r.childId, w.get? rootId with
  | some parent, some child, some root =>
    missingRows root parent.name parent.graph ++
      (missingRows (composeMissing root parent.name parent.graph) child.name child.graph ++
        [⟨parent.name, child.name, r.rel, false⟩])
  | _, _, _ => []

/-- The rows that some stitches in turn add to the graph of the root. -/
def stitchAllRows (rootId : String) : List SecondaryRelation → Workshop → List Row
  | [], _ => []
  | r :: rs, w => w.stitchRows rootId r ++ stitchAllRows rootId rs (w.stitch rootId r).1

/-- The rows that a stitch adds after those of the graph of an element. None if it does not add that
graph, because the element is no end or because the root has a term of its name. -/
def rowsAfter? (w : Workshop) (rootId : String) (r : SecondaryRelation) (id : String) :
    Option (List Row) :=
  match w.get? r.parentId, w.get? r.childId, w.get? rootId with
  | some parent, some child, some root =>
    let root' := composeMissing root parent.name parent.graph
    let relation : Row := ⟨parent.name, child.name, r.rel, false⟩
    -- The graph of the parent is there by then, and may have a term of the name.
    if r.childId == id && !root'.graph.contains child.name then some [relation]
    else if r.parentId == id && !root.graph.contains parent.name then
      some (missingRows root' child.name child.graph ++ [relation])
    else none
  | _, _, _ => none

/-- The rows that some stitches in turn add once the graph of an element was added for the last time.
None if no stitch adds that graph. -/
def rowsAfterAll? (rootId id : String) : List SecondaryRelation → Workshop → Option (List Row)
  | [], _ => none
  | r :: rs, w =>
    let w' := (w.stitch rootId r).1
    (rowsAfterAll? rootId id rs w').or
      ((w.rowsAfter? rootId r id).map (· ++ stitchAllRows rootId rs w'))

/-! ## What stitches leave -/

theorem get?_put_self {e : Instance} (h : w.get? id = some e) (e' : Instance) :
    (w.put id e').get? id = some e' := by
  rw [get?_put, if_pos rfl, h]
  rfl

theorem retains_composeMissing (root : Instance) (name : String) (graph : TermGraph) :
    (composeMissing root name graph).graph.Retains root.graph.toArena
      (missingRows root name graph) := by
  unfold composeMissing missingRows
  split
  · exact Arena.Retains.refl _
  · exact root.graph.valid.retains_compose graph.valid

/-- A graph whose name the root has no term for is there once it was added. -/
theorem retains_missing (hn : root.graph.contains name = false) :
    (composeMissing root name graph).graph.Retains graph.toArena [] := by
  unfold composeMissing
  rw [if_neg (ne_true_of_eq_false hn)]
  exact root.graph.valid.retains_added graph.valid

theorem retains_relate (e : Instance) (a : Arc) :
    (e.relate a).graph.Retains e.graph.toArena [a.toRow] :=
  e.graph.valid.retains_relate a

/-- **A stitch leaves what the root related**, but for the rows that it adds. -/
theorem retains_stitch (hs : w.stitch rootId r = (w', none)) :
    ∃ root root', w.get? rootId = some root ∧ w'.get? rootId = some root' ∧
      root'.graph.Retains root.graph.toArena (w.stitchRows rootId r) := by
  unfold stitch at hs
  split at hs
  iterate 3 cases hs
  next parent child root hp hc hr =>
  rw [get_eq_ok] at hp hc hr
  cases hs
  refine ⟨root, _, hr, get?_put_self hr _, ?_⟩
  unfold stitchRows
  rw [hp, hc, hr]
  exact ((retains_relate _ _).trans (retains_composeMissing _ child.name child.graph)).trans
    (retains_composeMissing root parent.name parent.graph)

/-- **Stitches leave what the root related**, but for the rows that they add. -/
theorem retains_stitchAll (hs : stitchAll rootId rs w = (w', none))
    (hr : w.get? rootId = some root) :
    ∃ root', w'.get? rootId = some root' ∧
      root'.graph.Retains root.graph.toArena (stitchAllRows rootId rs w) := by
  induction rs generalizing w root with
  | nil =>
    cases hs
    exact ⟨root, hr, Arena.Retains.refl _⟩
  | cons r rs ih =>
    obtain ⟨w₁, h₁, hs⟩ := stitchAll_cons_done hs
    obtain ⟨root₀, root₁, hroot₀, hroot₁, hkept₁⟩ := retains_stitch h₁
    obtain rfl := Option.some.inj (hr.symm.trans hroot₀)
    obtain ⟨root', hroot', hkept⟩ := ih hs hroot₁
    refine ⟨root', hroot', ?_⟩
    rw [stitchAllRows, h₁]
    exact hkept.trans hkept₁

/-- A stitch that adds a graph leaves it, but for the rows that it adds later. -/
theorem retains_of_rowsAfter (hlater : w.rowsAfter? rootId r id = some later)
    (hs : w.stitch rootId r = (w', none)) :
    ∃ e root, w.get? id = some e ∧ w'.get? rootId = some root ∧
      root.graph.Retains e.graph.toArena later := by
  unfold rowsAfter? at hlater
  split at hlater
  · next parent child root hp hc hr =>
    unfold stitch at hs
    rw [get_eq_ok.2 hp, get_eq_ok.2 hc, get_eq_ok.2 hr] at hs
    cases hs
    simp only [Bool.and_eq_true, beq_iff_eq, Bool.not_eq_true'] at hlater
    split at hlater
    · next hadd =>
      obtain ⟨rfl, hn⟩ := hadd
      cases hlater
      exact ⟨child, _, hc, get?_put_self hr _, (retains_relate _ _).trans (retains_missing hn)⟩
    · split at hlater
      · next hadd =>
        obtain ⟨rfl, hn⟩ := hadd
        cases hlater
        refine ⟨parent, _, hp, get?_put_self hr _, ?_⟩
        exact ((retains_relate _ _).trans (retains_composeMissing _ child.name child.graph)).trans
          (retains_missing hn)
      · cases hlater
  · cases hlater

theorem get?_stitch (hne : id ≠ rootId) (r : SecondaryRelation) (w : Workshop) :
    (w.stitch rootId r).1.get? id = w.get? id :=
  (agree_stitch w (fun h => hne (List.mem_singleton.1 h).symm) r).get? id (List.mem_singleton.2 rfl)

/-- **Stitches that add a graph leave it**, but for the rows that they add later. -/
theorem retains_of_rowsAfterAll (hne : id ≠ rootId)
    (hlater : rowsAfterAll? rootId id rs w = some later)
    (hs : stitchAll rootId rs w = (w', none)) :
    ∃ e root, w.get? id = some e ∧ w'.get? rootId = some root ∧
      root.graph.Retains e.graph.toArena later := by
  induction rs generalizing w later with
  | nil => cases hlater
  | cons r rs ih =>
    obtain ⟨w₁, h₁, hs⟩ := stitchAll_cons_done hs
    rw [rowsAfterAll?, h₁, Option.or_eq_some_iff] at hlater
    rcases hlater with hlater | ⟨-, hlater⟩
    · obtain ⟨e, root, he, hroot, hkept⟩ := ih hlater hs
      have hget := get?_stitch hne r w
      rw [h₁, he] at hget
      exact ⟨e, root, hget.symm, hroot, hkept⟩
    · obtain ⟨rest, hrest, rfl⟩ := Option.map_eq_some_iff.1 hlater
      obtain ⟨e, root₁, he, hroot₁, hkept₁⟩ := retains_of_rowsAfter hrest h₁
      obtain ⟨root, hroot, hkept⟩ := retains_stitchAll hs hroot₁
      exact ⟨e, root, he, hroot, hkept.trans hkept₁⟩

end Workshop

/-! ## In a component -/

namespace ComponentPlan

variable {c : ComponentPlan} {w : Workshop} {x : CompiledOntology} {id : String} {later : List Row}

/-- The instances once the operations of a component were executed. -/
def operated (library : Library) (settings : Settings) (c : ComponentPlan) (w : Workshop) :
    Workshop :=
  (Progress.executeAll library settings c.operations ⟨w, []⟩).1.workshop

/-- The rows that the stitches of a component add to the graph of an element. Only the root gets
any. -/
def stitchedRows (library : Library) (settings : Settings) (c : ComponentPlan) (w : Workshop)
    (id : String) : List Row :=
  if c.rootId = some id then Workshop.stitchAllRows id c.secondary (c.operated library settings w)
  else []

/-- The rows that a component adds to the graph of its root after those of the graph of an element.
None if it does not add that graph. -/
def rowsAfter? (library : Library) (settings : Settings) (c : ComponentPlan) (w : Workshop)
    (id : String) : Option (List Row) :=
  match c.rootId with
  | none => none
  | some rootId => Workshop.rowsAfterAll? rootId id c.secondary (c.operated library settings w)

/-- **The ontology has the rows of a graph that the component adds**, as it finds the graph, but for
those that are added later. -/
theorem rows_of_rowsAfter (hc : c.Enclosed) (hid : id ∉ c.nodes)
    (hx : (c.compile library settings w).ontology = .ok x)
    (hlater : c.rowsAfter? library settings w id = some later) :
    ∃ e, w.get? id = some e ∧ x.HasRowsBut e.graph later := by
  obtain ⟨rootId, p, w', hroot, hp, hw, hemit, -⟩ := compile_ok hx
  have hother : ∀ a ∈ c.nodes, a ∉ [id] := by
    intro a ha hm
    exact hid (List.mem_singleton.1 hm ▸ ha)
  have hrun := Progress.agree_executeAll library settings
    (fun op hop => ⟨hother _ (hc.ends op hop).1, hother _ (hc.ends op hop).2⟩) ⟨w, []⟩
  unfold rowsAfter? operated at hlater
  rw [hroot, hp] at hlater
  rw [hp] at hrun
  have hne : id ≠ rootId := by
    rintro rfl
    exact hid (hc.root id hroot)
  obtain ⟨e, root, he, hr, hkept⟩ := Workshop.retains_of_rowsAfterAll hne hlater hw
  refine ⟨e, (hrun.get? id (List.mem_singleton.2 rfl)).symm.trans he, fun row hrow => ?_⟩
  obtain ⟨root', hr', rfl⟩ := Workshop.emitOntology_eq_ok.1 hemit
  obtain rfl := Option.some.inj (hr.symm.trans hr')
  exact hkept.exists_row e.graph.valid root.graph.valid hrow

/-- A component with an ontology stitches its relations into what its operations left. -/
theorem stitchAll_operated {rootId : String} (hroot : c.rootId = some rootId)
    (hx : (c.compile library settings w).ontology = .ok x) :
    Workshop.stitchAll rootId c.secondary (c.operated library settings w) =
        ((c.compile library settings w).workshop, none) ∧
      (c.compile library settings w).workshop.emitOntology rootId = .ok x := by
  obtain ⟨rootId', p, w', hroot', hp, hw, hemit, -⟩ := compile_ok hx
  obtain rfl := Option.some.inj (hroot.symm.trans hroot')
  have hworkshop : (c.compile library settings w).workshop = w' := by
    unfold compile conclude
    rw [hroot]
    simp only [hp, hw]
  rw [operated, hp, hworkshop]
  exact ⟨hw, hemit⟩

/-- The stitches of a component leave what its operations left, but for the rows that they add. -/
theorem retains_operated (hx : (c.compile library settings w).ontology = .ok x) {e : Instance}
    (he : (c.compile library settings w).workshop.get? id = some e) :
    ∃ e', (c.operated library settings w).get? id = some e' ∧
      e.graph.Retains e'.graph.toArena (c.stitchedRows library settings w id) := by
  obtain ⟨rootId, -, -, hroot, -⟩ := compile_ok hx
  obtain ⟨hw, -⟩ := stitchAll_operated hroot hx
  by_cases hid : id = rootId
  · subst hid
    have hname := (Workshop.stitchAll_done hw).1 id
    unfold Workshop.name? at hname
    rw [he] at hname
    obtain ⟨e', he', -⟩ := Option.map_eq_some_iff.1 hname.symm
    obtain ⟨e₁, he₁, hkept⟩ := Workshop.retains_stitchAll hw he'
    obtain rfl := Option.some.inj (he.symm.trans he₁)
    rw [stitchedRows, if_pos hroot]
    exact ⟨e', he', hkept⟩
  · have hroot' : rootId ∉ [id] := fun h => hid (List.mem_singleton.1 h).symm
    have hst := Workshop.agree_stitchAll hroot' c.secondary (c.operated library settings w)
    rw [hw] at hst
    have hother : c.rootId ≠ some id := fun h => hid (Option.some.inj (h.symm.trans hroot))
    rw [stitchedRows, if_neg hother]
    exact ⟨e, (hst.get? id (List.mem_singleton.2 rfl)).symm.trans he, Arena.Retains.refl _⟩

end ComponentPlan

open ComponentPlan

/-! ## Components in turn -/

variable {cs : List ComponentPlan} {s t : ComponentPlan × Workshop} {w : Workshop}

/-- **A component finds the instances of one before it as that one left them.** -/
theorem agree_of_precedes (he : ∀ c ∈ cs, c.Enclosed) (hd : cs.Pairwise Apart)
    (h : Precedes (starts library settings cs w) s t) :
    Workshop.Agree s.1.nodes t.2 (s.1.compile library settings s.2).workshop := by
  induction cs generalizing w with
  | nil => cases h
  | cons c cs ih =>
    rw [List.pairwise_cons] at hd
    have hrest : ∀ d ∈ cs, d.Enclosed := fun d hm => he d (List.mem_cons_of_mem c hm)
    cases h with
    | cons _ h => exact ih hrest hd.2 h
    | cons_cons _ ht =>
      refine agree_of_mem_starts hrest (fun d hm _ id hid hc => ?_) (List.singleton_sublist.1 ht)
      exact hd.1 d hm id hc hid

/-- **A component finds the instances of one after it as they were made.** -/
theorem agree_of_followed (he : ∀ c ∈ cs, c.Enclosed) (hd : cs.Pairwise Apart)
    (h : Precedes (starts library settings cs w) s t) : Workshop.Agree t.1.nodes s.2 w := by
  induction cs generalizing w with
  | nil => cases h
  | cons c cs ih =>
    rw [List.pairwise_cons] at hd
    have hrest : ∀ d ∈ cs, d.Enclosed := fun d hm => he d (List.mem_cons_of_mem c hm)
    cases h with
    | cons _ h =>
      have ht := mem_of_mem_starts (Precedes.mem_right h)
      exact (ih hrest hd.2 h).trans
        (agree_compile library settings (he c List.mem_cons_self) (fun _ => hd.1 t.1 ht) w)
    | cons_cons _ _ => exact Workshop.Agree.refl _ w

/-- **What the ontology of a component has of a graph of another component**, if it adds that graph
to the graph of its root. If the other component comes first, it has every row that is there once
the operations of the other one were executed. If the other one comes later, it has the rows that
were there when the instance was made. The rows that are stitched after that may give a pair another
relation. -/
theorem stitched_graph_has_rows (library : Library) (settings : Settings) (drawing : Drawing)
    (ids : IdSource) {a b : ComponentPlan × Workshop} {x y : CompiledOntology} {id : String}
    {later : List Row} (hx : (a.1.compile library settings a.2).ontology = .ok x)
    (hy : (b.1.compile library settings b.2).ontology = .ok y) (hid : id ∈ b.1.nodes)
    (hlater : a.1.rowsAfter? library settings a.2 id = some later) :
    (Precedes (diagramStarts library settings drawing ids) b a →
      ∃ e, (b.1.operated library settings b.2).get? id = some e ∧
        x.HasRowsBut e.graph (b.1.stitchedRows library settings b.2 id ++ later)) ∧
    (Precedes (diagramStarts library settings drawing ids) a b →
      ∃ e, (Workshop.create library (OperationGraph.build drawing settings ids).1).get? id = some e
        ∧ x.HasRowsBut e.graph later) := by
  let o := (OperationGraph.build drawing settings ids).1
  have hcs : ∀ c ∈ (ofGraph o).components, c.Enclosed := fun _ => enclosed_of_mem_components
  have hapart := pairwise_apart_components drawing settings ids
  have hstarts : (diagramStarts library settings drawing ids).Pairwise
      fun s t => Apart s.1 t.1 := by
    rw [← List.pairwise_map, diagramStarts, starts_map_fst]
    exact hapart
  constructor
  · intro h
    have ha := mem_of_mem_starts h.mem_right
    obtain ⟨e, he, hrows⟩ := rows_of_rowsAfter (hcs a.1 ha) (h.pairwise hstarts id hid) hx hlater
    rw [(agree_of_precedes hcs hapart h).get? id hid] at he
    obtain ⟨e', he', hkept⟩ := retains_operated hy he
    exact ⟨e', he', hrows.of_retains hkept⟩
  · intro h
    have ha := mem_of_mem_starts h.mem_left
    have hida : id ∉ a.1.nodes := fun hm => h.pairwise hstarts id hm hid
    obtain ⟨e, he, hrows⟩ := rows_of_rowsAfter (hcs a.1 ha) hida hx hlater
    rw [(agree_of_followed hcs hapart h).get? id hid] at he
    exact ⟨e, he, hrows⟩

/-- A place on an element of a component that comes later and defines a variable. -/
def definedLater : Drawing :=
  ((Drawing.empty.relate "a" "A[T|t_]" "mds:define" "x" "1(v_)").relate
    "b" "B[T|t_]" "mds:define" "y" "2(v_)").relate
    "a" "A[T|t_]" "mds:place" "b" "B[T|t_]"

/-- The ontology has the variable of the later element and not what it is defined as. -/
theorem stitched_graph_has_rows_definedLater :
    let run := diagramStarts variableTemplate .standard definedLater (.ofHeader "gen")
    ∃ a b x y, Precedes run a b ∧
      (a.1.compile variableTemplate .standard a.2).ontology = .ok x ∧
      (b.1.compile variableTemplate .standard b.2).ontology = .ok y ∧ "b" ∈ b.1.nodes ∧
      a.1.rowsAfter? variableTemplate .standard a.2 "b" = some [⟨"A", "B", "mds:place", false⟩] ∧
      ⟨"B", "B v", "has", false⟩ ∈ x.relationships ∧
      ∃ e, (b.1.operated variableTemplate .standard b.2).get? "b" = some e ∧
        ⟨"B", "2", "has", false⟩ ∈ e.graph.rows ∧
        ¬∃ row ∈ x.relationships, row.parent = "B" ∧ row.child = "2" := by
  intro run
  have htwo : run.length = 2 := by decide +kernel
  have hresults : run.map (fun s => (s.1.compile variableTemplate .standard s.2).ontology) =
      [.ok ⟨"a", "A", [⟨"A", "1", "has", false⟩, ⟨"B", "B v", "has", false⟩,
        ⟨"A", "B", "mds:place", false⟩]⟩, .ok ⟨"b", "B", [⟨"B", "2", "has", false⟩]⟩] := by
    decide +kernel
  have hb : run.map (fun s => (decide ("b" ∈ s.1.nodes),
      s.1.rowsAfter? variableTemplate .standard s.2 "b")) =
        [(false, some [⟨"A", "B", "mds:place", false⟩]), (true, none)] := by decide +kernel
  have hleft : run.map (fun s => ((s.1.operated variableTemplate .standard s.2).get? "b").map
      fun e => e.graph.rows) = [some [⟨"B", "B v", "has", false⟩],
        some [⟨"B", "2", "has", false⟩]] := by decide +kernel
  have hmade : ((Workshop.create variableTemplate (OperationGraph.build definedLater .standard
      (.ofHeader "gen")).1).get? "b").map (fun e => e.graph.rows) =
        some [⟨"B", "B v", "has", false⟩] := by decide +kernel
  obtain ⟨a, b, hrun⟩ := List.length_eq_two.1 htwo
  have hab : Precedes run a b := by
    rw [hrun]
    exact List.Sublist.refl _
  rw [hrun] at hresults hb hleft
  simp only [List.map_cons, List.map_nil, List.cons.injEq, Prod.mk.injEq, decide_eq_true_eq,
    and_true] at hresults hb hleft
  obtain ⟨hx, hy⟩ := hresults
  obtain ⟨⟨-, hlater⟩, hid, -⟩ := hb
  obtain ⟨e, he, hrows⟩ := (stitched_graph_has_rows _ _ _ _ hx hy hid hlater).2 hab
  rw [he] at hmade
  have hfresh : e.graph.rows = [⟨"B", "B v", "has", false⟩] := Option.some.inj hmade
  obtain ⟨e', he', hrows'⟩ := Option.map_eq_some_iff.1 hleft.2
  obtain ⟨row, hrow, -, -, hkept⟩ := hrows ⟨"B", "B v", "has", false⟩ (by rw [hfresh]; decide)
  have hkept : row = ⟨"B", "B v", "has", false⟩ := hkept.resolve_right (by decide)
  refine ⟨a, b, _, _, hab, hx, hy, hid, hlater, hkept ▸ hrow, e', he', ?_, by decide⟩
  rw [hrows']
  decide

/-! ## Graphs that are finished and missing -/

/-- Says whether the ontology of a component has the finished graph of every end of its secondary
relations in another component, if both give an ontology. A graph is finished once the operations of
its component were executed. -/
def FindsFinished (has : CompiledOntology → TermGraph → Prop) (library : Library)
    (settings : Settings) (a b : ComponentPlan × Workshop) : Prop :=
  ∀ r ∈ a.1.secondary, ∀ id ∈ [r.parentId, r.childId], id ∈ b.1.nodes → id ∉ a.1.nodes →
    ∀ x ∈ (a.1.compile library settings a.2).ontology?,
      (b.1.compile library settings b.2).ontology?.isSome →
        ∀ e ∈ (b.1.operated library settings b.2).get? id, has x e.graph

/-- Says whether every component of a diagram finds the graphs of every other finished. -/
def StitchesFinished (has : CompiledOntology → TermGraph → Prop) (library : Library)
    (settings : Settings) (drawing : Drawing) (ids : IdSource) : Prop :=
  let run := diagramStarts library settings drawing ids
  ∀ a ∈ run, ∀ b ∈ run, FindsFinished has library settings a b

instance (x : CompiledOntology) (g : TermGraph) : Decidable (x.HasRows g) :=
  inferInstanceAs (Decidable (∀ row ∈ g.rows, ∃ r ∈ x.relationships, _ ∧ _))

instance (has : CompiledOntology → TermGraph → Prop) [∀ x g, Decidable (has x g)]
    (library : Library) (settings : Settings) (a b : ComponentPlan × Workshop) :
    Decidable (FindsFinished has library settings a b) :=
  inferInstanceAs (Decidable (∀ r ∈ a.1.secondary, ∀ id ∈ [r.parentId, r.childId], _ → _))

instance (has : CompiledOntology → TermGraph → Prop) [∀ x g, Decidable (has x g)]
    (library : Library) (settings : Settings) (drawing : Drawing) (ids : IdSource) :
    Decidable (StitchesFinished has library settings drawing ids) :=
  inferInstanceAs (Decidable (∀ a ∈ _, ∀ b ∈ _, FindsFinished has library settings a b))

/-- A place on an element of a component that comes first, from one that defines a variable as its
name. -/
def namedBefore : Drawing :=
  ((Drawing.empty.relate "b" "B[T|t_]" "mds:define" "y" "2(v_)").relate
    "a" "A[T|t_]" "mds:define" "x" "B(v_)").relate
    "a" "A[T|t_]" "mds:place" "b" "B[T|t_]"

/-- A template with a variable above its self term. -/
def ownedTemplate : Library :=
  .ofList [("T", [⟨"v_", "t_", "has", false⟩])]

/-- A place on an element of a component that comes first and relates the two names itself. -/
def placedOver : Drawing :=
  ((Drawing.empty.relate "b" "B[T|t_]" "mds:define" "y" "A(v_)").relate
    "a" "A[T|t_]" "mds:define" "x" "1(v_)").relate
    "a" "A[T|t_]" "mds:place" "b" "B[T|t_]"

/-- **An ontology can lack what another component made of an end**: because that component comes
later, because the root has a term of the name of the end already, and because the stitched relation
takes the place of a row. -/
theorem finished_graphs_can_be_missing :
    ¬StitchesFinished CompiledOntology.HasRows variableTemplate .standard definedLater
        (.ofHeader "gen") ∧
      ¬StitchesFinished CompiledOntology.HasRows variableTemplate .standard namedBefore
        (.ofHeader "gen") ∧
      ¬StitchesFinished (fun x g => g.rows ⊆ x.relationships) ownedTemplate .standard placedOver
        (.ofHeader "gen") := by
  decide +kernel

end Ontogram
