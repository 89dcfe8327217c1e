import Mathlib.Data.List.Rotate
import Ontogram.Proofs.Diagram.Alike
import Ontogram.Proofs.Diagram.Counterparts
import Ontogram.Proofs.Diagram.Order

/-!
# What depends on the order of the rows

Rows in another order can compile to other ontologies. The order decides which label an element
has, in which order operations of one weight are executed, which element is the root of a
component, in which order secondary relations are stitched, and which of two components comes first.

Nothing else depends on it: rows that keep those give the same ontologies.

* `agree_create` — the instances of a diagram before its components compile.
* `counterpart_of_rootId` — the plan of a component is known by its root.
* `reordered_rows_compile_perm` — rows that keep what counts compile to the same ontologies.
* `reordered_rows_can_matter` — rows that do not can compile to others.
-/

namespace Ontogram

open ExecutionPlan ElementGraph OperationGraph

variable {library : Library} {settings : Settings}

/-! ## Instances -/

namespace Workshop

/-- What becomes of the label of an element, if it asks for an instance. -/
def made? (library : Library) (e : Element) : Option (Except InstanceError Instance) :=
  match Label.Instantiation.parse e.content with
  | .error _ => none
  | .ok d => some (Instance.instantiate library d.name d.base d.selfTerm)

/-- The instance of an element, under its id. -/
def instanceOf? (library : Library) (isComponent : String → Bool) (e : Element) :
    Option (String × Instance) :=
  match made? library e with
  | some (.ok i) => some (e.id, { i with isComponent := isComponent e.id })
  | some (.error _) => none
  | none => none

/-- Why there is no instance of an element, under its id. -/
def failureOf? (library : Library) (e : Element) : Option (String × InstanceError) :=
  match made? library e with
  | some (.error cause) => some (e.id, cause)
  | some (.ok _) => none
  | none => none

theorem foldl_addElement (library : Library) (isComponent : String → Bool) (es : List Element)
    (w : Workshop) : es.foldl (addElement library isComponent) w =
      ⟨w.instances ++ es.filterMap (instanceOf? library isComponent),
        w.failed ++ es.filterMap (failureOf? library)⟩ := by
  induction es generalizing w with
  | nil => simp
  | cons e es ih =>
    rw [List.foldl_cons, ih, List.filterMap_cons, List.filterMap_cons]
    unfold addElement instanceOf? failureOf? made?
    cases Label.Instantiation.parse e.content with
    | error _ => rfl
    | ok d =>
      cases hi : Instance.instantiate library d.name d.base d.selfTerm with
      | ok i => simp [hi]
      | error cause => simp [hi]

/-- What elements make is found under their ids. -/
theorem find?_filterMap {α : Type} {f : Element → Option (String × α)}
    (hf : ∀ e p, f e = some p → p.1 = e.id) {es : List Element} (hn : (es.map Element.id).Nodup)
    (id : String) : (es.filterMap f).find? (fun p => p.1 == id) =
      (es.find? fun e => e.id == id).bind f := by
  induction es with
  | nil => rfl
  | cons e es ih =>
    rw [List.map_cons, List.nodup_cons] at hn
    rw [List.filterMap_cons, List.find?_cons]
    by_cases he : e.id = id
    · have hnone : es.find? (fun e => e.id == id) = none := by
        rw [List.find?_eq_none]
        intro x hx hxid
        exact hn.1 (List.mem_map.2 ⟨x, hx, (beq_iff_eq.1 hxid).trans he.symm⟩)
      cases hfe : f e with
      | none => simp [he, hfe, ih hn.2, hnone]
      | some p => simp [he, hfe, hf e p hfe]
    · rw [beq_false_of_ne he]
      cases hfe : f e with
      | none => exact ih hn.2
      | some p => simp [he, hf e p hfe, ih hn.2]

theorem fst_instanceOf? (isComponent : String → Bool) (e : Element) (p : String × Instance)
    (hp : instanceOf? library isComponent e = some p) : p.1 = e.id := by
  unfold instanceOf? at hp
  split at hp
  · cases hp
    rfl
  all_goals cases hp

theorem fst_failureOf? (e : Element) (p : String × InstanceError)
    (hp : failureOf? library e = some p) : p.1 = e.id := by
  unfold failureOf? at hp
  split at hp
  · cases hp
    rfl
  all_goals cases hp

variable {o o' : OperationGraph}

/-- The instance of an element is what its label makes. -/
theorem get?_create (ho : o.graph.WellFormed) (id : String) : (create library o).get? id =
    ((o.graph.element? id).bind (instanceOf? library o.isComponent)).map Prod.snd := by
  unfold get? create
  rw [foldl_addElement, List.nil_append]
  simp only
  rw [find?_filterMap (fst_instanceOf? o.isComponent) ho.ids_nodup]
  rfl

theorem find?_failed_create (ho : o.graph.WellFormed) (id : String) :
    (create library o).failed.find? (fun e => e.1 == id) =
      (o.graph.element? id).bind (failureOf? library) := by
  unfold create
  rw [foldl_addElement, List.nil_append]
  exact find?_filterMap fst_failureOf? ho.ids_nodup id

/-- **Graphs that match make the same instances.** -/
theorem agree_create (library : Library) (m : Matches o o') (ho : o.graph.WellFormed)
    (ho' : o'.graph.WellFormed) (ids : List String) :
    Agree ids (create library o) (create library o') where
  get? := by
    intro id _
    rw [get?_create ho, get?_create ho', m.graph.element?, funext m.isComponent]
  missing := by
    intro id _
    unfold missing
    rw [find?_failed_create ho, find?_failed_create ho', m.graph.element?]

end Workshop

/-! ## Plans -/

section Plans

variable {g h : ElementGraph}

theorem ElementGraph.Alike.edgesFrom (a : Alike g h) (hg : g.WellFormed) (hh : h.WellFormed)
    (root : String) : edgesFrom g root = edgesFrom h root := by
  have hout : g.outgoing = h.outgoing := funext a.outgoing
  unfold ExecutionPlan.edgesFrom successors
  rw [hout, a.length_elements hg hh]

theorem ElementGraph.Alike.operationOf (a : Alike g h) : operationOf g = operationOf h := by
  funext e
  unfold ExecutionPlan.operationOf
  rw [a.element?]

variable {drawing drawing' : Drawing} {ids : IdSource} {c c' : ComponentPlan}

/-- **The plan of a component is known by its root**, but for the secondary relations. -/
theorem counterpart_of_rootId
    (m : Matches (build drawing settings ids).1 (build drawing' settings ids).1)
    (hc : c ∈ (ofDrawing drawing settings ids).components)
    (hc' : c' ∈ (ofDrawing drawing' settings ids).components) {root : String}
    (hroot : c.rootId = some root) (hroot' : c'.rootId = some root)
    (hsecondary : c.secondary = c'.secondary) : c.Counterpart c' := by
  have a : Alike (plannedGraph (build drawing settings ids).1)
      (plannedGraph (build drawing' settings ids).1) := m.graph.without m.isolates
  have hg := wellFormed_plannedGraph drawing settings ids
  have hg' := wellFormed_plannedGraph drawing' settings ids
  refine ⟨hroot.trans hroot'.symm, ?_, hsecondary, fun id => ?_⟩
  · rw [(operations_of_rootId hc hroot).1, (operations_of_rootId hc' hroot').1,
      a.edgesFrom hg hg', a.operationOf]
  · rw [(accountsFor_of_mem hg hc).1 root ((enclosed_of_mem_components hc).root root hroot),
      (accountsFor_of_mem hg' hc').1 root ((enclosed_of_mem_components hc').root root hroot'),
      a.connected]

/-- The roots of a plan, each with the secondary relations of its component. -/
def ExecutionPlan.rooted (p : ExecutionPlan) : List (String × List SecondaryRelation) :=
  p.components.filterMap fun c => c.rootId.map fun root => (root, c.secondary)

theorem ExecutionPlan.mem_rooted {p : ExecutionPlan} {root : String}
    {secondary : List SecondaryRelation} : (root, secondary) ∈ p.rooted ↔
      ∃ c ∈ p.components, c.rootId = some root ∧ c.secondary = secondary := by
  simp [rooted]

end Plans

/-! ## Rows -/

/-- What rows must keep of the relations of a drawing to compile to the same ontologies. -/
structure KeepsComposition (settings : Settings) (drawing : Drawing) (ids : IdSource)
    (rows : List DrawnRelation) : Prop where
  /-- An element has the label of its first mention. -/
  labels : ∀ id, labelIn? rows id = labelIn? drawing.relations id
  /-- The rows of one parent that are no secondary relations have their order. -/
  siblings : ∀ id, drawnFrom settings rows id = drawnFrom settings drawing.relations id
  /-- The same elements are bound from the containers that they are drawn inside of. -/
  componentRoots : ∀ id,
    id ∈ (build { drawing with relations := rows } settings ids).1.componentRoots ↔
      id ∈ (build drawing settings ids).1.componentRoots
  /-- Components have their roots, and their secondary relations in their order. -/
  rooted : (ofDrawing { drawing with relations := rows } settings ids).rooted.Perm
    (ofDrawing drawing settings ids).rooted
  /-- A component has those that it sees on the same side. -/
  sees : ∀ c ∈ (ofDrawing drawing settings ids).components,
    ∀ d ∈ (ofDrawing drawing settings ids).components, c.Sees d →
      ∀ a b, c.rootId = some a → d.rootId = some b →
        (Precedes (rootsOf (ofDrawing drawing settings ids).components) b a ↔
          Precedes (rootsOf (ofDrawing { drawing with relations := rows } settings ids).components)
            b a)

variable {drawing : Drawing} {ids : IdSource} {rows : List DrawnRelation}

theorem KeepsComposition.matches (k : KeepsComposition settings drawing ids rows) :
    Matches (build drawing settings ids).1
      (build { drawing with relations := rows } settings ids).1 :=
  (matches_build ids k.labels k.siblings k.componentRoots).symm

/-- Rows that keep what counts give the same components. -/
theorem KeepsComposition.reordered (k : KeepsComposition settings drawing ids rows) :
    Reordered (ofDrawing drawing settings ids).components
      (ofDrawing { drawing with relations := rows } settings ids).components where
  counterpart := by
    intro c hc hroot
    obtain ⟨root, hroot⟩ := Option.isSome_iff_exists.1 hroot
    have hmem := k.rooted.mem_iff.2 (mem_rooted.2 ⟨c, hc, hroot, rfl⟩)
    obtain ⟨c', hc', hroot', hsecondary⟩ := mem_rooted.1 hmem
    exact ⟨c', hc', counterpart_of_rootId k.matches hc hc' hroot hroot' hsecondary.symm⟩
  counterpart' := by
    intro c' hc' hroot
    obtain ⟨root, hroot'⟩ := Option.isSome_iff_exists.1 hroot
    have hmem := k.rooted.mem_iff.1 (mem_rooted.2 ⟨c', hc', hroot', rfl⟩)
    obtain ⟨c, hc, hroot, hsecondary⟩ := mem_rooted.1 hmem
    exact ⟨c, hc, counterpart_of_rootId k.matches hc hc' hroot hroot' hsecondary⟩
  sees := k.sees

/--
**Rows that keep what counts compile to the same ontologies.**

The rows may be those of a drawing in another order. They compile to the same ontologies, up to the
order of the ontologies, if each element keeps the label of its first mention; if the rows of each
parent keep their order, secondary relations apart; if the same elements are component roots; if the
components have the same roots, and their secondary relations in the same order; and if a component
that sees another one keeps it on the same side. Both compilations have the same source of ids for
the edges that were not drawn.
-/
theorem reordered_rows_compile_perm (library : Library) (settings : Settings) (drawing : Drawing)
    (ids : IdSource) (rows : List DrawnRelation) (k : KeepsComposition settings drawing ids rows) :
    (compile library settings { drawing with relations := rows } ids).ontologies.Perm
      (compile library settings drawing ids).ontologies := by
  have hmade := Workshop.agree_create library k.matches (wellFormed_build _ _ _)
    (wellFormed_build _ _ _)
  rw [ontologies_compile, ontologies_compile]
  exact (k.reordered.ontologies_perm (separate_components _ _ _) (separate_components _ _ _)
    hmade).symm

/-- Three components, of which the first sees the second. -/
def definedApart : Drawing :=
  definedLater.relate "c" "C[T|t_]" "mds:define" "z" "3(v_)"

/-- The last component may come first. -/
theorem reordered_rows_compile_perm_definedApart :
    (definedApart.relations.rotate 3).Perm definedApart.relations ∧
    KeepsComposition .standard definedApart (.ofHeader "gen") (definedApart.relations.rotate 3) ∧
    (compile variableTemplate .standard
      { definedApart with relations := definedApart.relations.rotate 3 }
      (.ofHeader "gen")).ontologies.Perm
        (compile variableTemplate .standard definedApart (.ofHeader "gen")).ontologies := by
  have hp := List.rotate_perm definedApart.relations 3
  have hroots : (build { definedApart with relations := definedApart.relations.rotate 3 } .standard
      (.ofHeader "gen")).1.componentRoots.Perm
        (build definedApart .standard (.ofHeader "gen")).1.componentRoots := by decide +kernel
  have hsees : ∀ c ∈ (ofDrawing definedApart .standard (.ofHeader "gen")).components,
      ∀ d ∈ (ofDrawing definedApart .standard (.ofHeader "gen")).components, c.Sees d →
        ∀ a ∈ c.rootId, ∀ b ∈ d.rootId,
          (Precedes (rootsOf (ofDrawing definedApart .standard (.ofHeader "gen")).components) b a ↔
            Precedes (rootsOf (ofDrawing
              { definedApart with relations := definedApart.relations.rotate 3 } .standard
              (.ofHeader "gen")).components) b a) := by decide +kernel
  have hk : KeepsComposition .standard definedApart (.ofHeader "gen")
      (definedApart.relations.rotate 3) :=
    ⟨labelIn?_eq_of_perm hp (by decide +kernel), drawnFrom_eq_of_perm hp (by decide +kernel),
      fun _ => hroots.mem_iff, by decide +kernel,
      fun c hc d hd h a b ha hb => hsees c hc d hd h a ha b hb⟩
  exact ⟨hp, hk, reordered_rows_compile_perm _ _ _ _ _ hk⟩

/-! ## Rows that do not -/

/-- The same root, the same name and the same set of rows. -/
def CompiledOntology.Same (x y : CompiledOntology) : Prop :=
  x.rootId = y.rootId ∧ x.name = y.name ∧ x.relationships ⊆ y.relationships ∧
    y.relationships ⊆ x.relationships

instance (x y : CompiledOntology) : Decidable (x.Same y) :=
  inferInstanceAs (Decidable (_ ∧ _ ∧ _ ∧ _))

/-- The same set of ontologies. -/
def SameOntologies (xs ys : List CompiledOntology) : Prop :=
  (∀ x ∈ xs, ∃ y ∈ ys, x.Same y) ∧ ∀ y ∈ ys, ∃ x ∈ xs, x.Same y

instance (xs ys : List CompiledOntology) : Decidable (SameOntologies xs ys) :=
  inferInstanceAs (Decidable (_ ∧ _))

/-- Two relations between components. -/
def twoSecondary : Settings :=
  { Settings.standard with secondaryRels := [OperationKind.placeRel, "mds:near"] }

/-- The ontologies of a drawing are others once its first row is the last. -/
def TurnMatters (library : Library) (d : Drawing) : Prop :=
  (d.relations.rotate 1).Perm d.relations ∧ ¬SameOntologies
    (compile library twoSecondary { d with relations := d.relations.rotate 1 }
      (.ofHeader "gen")).ontologies
    (compile library twoSecondary d (.ofHeader "gen")).ontologies

instance (library : Library) (d : Drawing) : Decidable (TurnMatters library d) :=
  inferInstanceAs (Decidable (_ ∧ ¬_))

/-- An element with a label in each of two rows. -/
def labeledTwice : Drawing :=
  (Drawing.empty.relate "a" "A[T|t_]" "mds:define" "x" "1(v_)").relate
    "a" "B[T|t_]" "mds:place" "b" "C[T|t_]"

/-- An element that defines a variable as two values. -/
def twoValues : Drawing :=
  (Drawing.empty.relate "a" "A[T|t_]" "mds:define" "x" "1(v_)").relate
    "a" "A[T|t_]" "mds:define" "y" "2(v_)"

/-- Templates of which each has the self term of the one before it. -/
def chainedTemplates : Library :=
  .ofList [("A", [⟨"a_", "v_", "has", false⟩]), ("X", [⟨"a_", "x_", "has", false⟩]),
    ("B", [⟨"x_", "b_", "has", false⟩])]

/-- An element inside of one that it leads to. It is bound from there if it is the component
root. -/
def insideOut : Drawing :=
  ((Drawing.empty.relate "a" "A[A|a_]" "mds:bind" "x" "X[X|x_]").relate
    "b" "B[B|b_]" "pmd:note" "x" "X[X|x_]").inside "b" ["x"]

/-- A component with two elements that no edge leads to. -/
def twoHeads : Drawing :=
  (((Drawing.empty.relate "a" "A[T|t_]" "mds:bind" "c" "C[T|t_]").relate
    "b" "B[T|t_]" "mds:bind" "d" "D[T|t_]").relate
    "c" "C[T|t_]" "mds:bind" "e" "E[T|t_]").relate
    "d" "D[T|t_]" "mds:bind" "e" "E[T|t_]"

/-- Two secondary relations between the same elements. -/
def placedTwice : Drawing :=
  ((Drawing.empty.relate "a" "A[T|t_]" "mds:place" "b" "B[T|t_]").relate
    "a" "A[T|t_]" "mds:near" "b" "B[T|t_]").relate
    "a" "A[T|t_]" "mds:define" "x" "1(v_)"

/-- **Rows in another order can compile to other ontologies**: by the labels, by the rows of one
parent, by what is bound from containers, by the root of a component, by the order of secondary
relations, and by that of two components. -/
theorem reordered_rows_can_matter :
    TurnMatters variableTemplate labeledTwice ∧ TurnMatters variableTemplate twoValues ∧
      TurnMatters chainedTemplates insideOut ∧ TurnMatters variableTemplate twoHeads ∧
      TurnMatters variableTemplate placedTwice ∧ TurnMatters variableTemplate definedLater := by
  decide +kernel

end Ontogram
