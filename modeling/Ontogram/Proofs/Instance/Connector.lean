import Ontogram.Proofs.Instance.Resolved

/-!
# The connector of a bind

The connector starts as the last term but one of the path and follows the renames that share the
path, so it is the term right above the child when they are done. It is not taken along by the
scoping that comes next under a component. If it is a free variable of the child, the term above the
child gets another label there, and the connector keeps the old one.

* `relation?_of_bindPath?` — the last step of the path.
* `connectorAfter_eq_self_iff` — renames to greater labels leave those that they do not take out.
* `bind_records_connector` — which term is above the child, and when it is the connector.
-/

namespace Ontogram.Instance

variable {e child : Instance} {path : List String} {label x y : String}
  {renames : List (String × String)}

/-! ## The last step of the path -/

theorem lastButOne_append (init : List String) (x y : String) :
    lastButOne (init ++ [x] ++ [y]) = x := by
  simp [lastButOne]

/-- The last term but one of the path is right above the instance term of the child. -/
theorem relation?_of_bindPath? (hp : bindPath? e child = some path) :
    (child.graph.relation? (lastButOne path) child.selfLabel).isSome := by
  obtain ⟨htrail, hlength⟩ := isTrail_of_bindPath? hp
  obtain ⟨init, x, rfl, hstep⟩ := htrail.exists_last_step hlength
  rw [lastButOne_append]
  exact (Arena.mem_children child.graph.valid).1 hstep

/-! ## Renames to greater labels -/

section Greater

variable {size : String → Nat}

theorem le_connectorAfter (hsize : ∀ r ∈ renames, size r.1 < size r.2) :
    size label ≤ size (connectorAfter label renames) := by
  induction renames generalizing label with
  | nil => exact Nat.le_refl _
  | cons r renames ih =>
    obtain ⟨hr, hsize⟩ := List.forall_mem_cons.1 hsize
    refine Nat.le_trans ?_ (ih hsize)
    show size label ≤ size (if r.1 = label then r.2 else label)
    split
    · next he => exact Nat.le_of_lt (he ▸ hr)
    · exact Nat.le_refl _

/-- A label that is taken out becomes a greater one for good. -/
theorem lt_connectorAfter (hsize : ∀ r ∈ renames, size r.1 < size r.2) {r : String × String}
    (hr : r ∈ renames) : size r.1 < size (connectorAfter r.1 renames) := by
  induction renames with
  | nil => exact absurd hr List.not_mem_nil
  | cons q renames ih =>
    obtain ⟨hq, hsize⟩ := List.forall_mem_cons.1 hsize
    show size r.1 < size (connectorAfter (if q.1 = r.1 then q.2 else r.1) renames)
    split
    · next he => exact Nat.lt_of_lt_of_le (he ▸ hq) (le_connectorAfter hsize)
    · next hne =>
      refine ih hsize ((List.mem_cons.1 hr).resolve_left ?_)
      rintro rfl
      exact hne rfl

/-- **Renames to greater labels leave exactly those that they do not take out.** -/
theorem connectorAfter_eq_self_iff (hsize : ∀ r ∈ renames, size r.1 < size r.2) :
    connectorAfter label renames = label ↔ ∀ r ∈ renames, r.1 ≠ label := by
  refine ⟨fun he r hr heq => ?_, connectorAfter_of_forall_ne⟩
  have hlt := lt_connectorAfter hsize hr
  rw [heq, he] at hlt
  exact Nat.lt_irrefl _ hlt

end Greater

/-! ## Binding -/

/-- The renames of a bind that scope. -/
def bindScopings (parent child : Instance) : List (String × String) :=
  match bindPath? parent child with
  | none => []
  | some path =>
    if parent.isComponent then
      scopings parent.name (child.replaceAll (sharings parent child path)).state.graph.variableLabels
    else []

theorem bindRenames_eq_append (hp : bindPath? e child = some path) :
    bindRenames e child = sharings e child path ++ bindScopings e child := by
  unfold bindRenames bindScopings
  rw [hp]

/-- What a bind takes out by scoping: the free variables of the child, under a component. -/
theorem exists_bindScoping_iff (hp : bindPath? e child = some path) (label : String) :
    (∃ r ∈ bindScopings e child, r.1 = label) ↔ e.isComponent = true ∧ Label.isFree label = true ∧
      (child.replaceAll (sharings e child path)).state.graph.contains label = true := by
  unfold bindScopings
  rw [hp]
  simp only
  split
  · next hcomponent =>
    rw [and_iff_right hcomponent]
    constructor
    · rintro ⟨r, hr, rfl⟩
      obtain ⟨hlabel, hfree, -⟩ := mem_scopings.1 hr
      exact ⟨hfree, (TermGraph.mem_variableLabels.1 hlabel).1⟩
    · rintro ⟨hfree, hc⟩
      have hvariable := (Bool.and_eq_true_iff.1 hfree).1
      exact ⟨(label, Label.scopedVariable e.name label), mem_scopings.2
        ⟨TermGraph.mem_variableLabels.2 ⟨hc, hvariable⟩, hfree, rfl⟩, rfl⟩
  · next hcomponent =>
    exact iff_of_false (fun ⟨_, hr, _⟩ => List.not_mem_nil hr) fun h => hcomponent h.1

/-- The connector of a bind follows the renames that share the path. -/
theorem connector_bind (hbind : (e.bind child).error? = none)
    (hp : bindPath? e child = some path) : (e.bind child).state.1.connector =
      some (connectorAfter (lastButOne path) (sharings e child path)) := by
  obtain ⟨path', graph, registry, -, hp', -, hdone⟩ := bind_eq_done hbind
  obtain rfl : path = path' := Option.some.inj (hp.symm.trans hp')
  rw [hdone]
  rfl

/-- **The term above the child is what the scoping makes of the connector.** -/
theorem relation?_connector (hbind : (e.bind child).error? = none) :
    ∃ connector, (e.bind child).state.1.connector = some connector ∧
      ((e.bind child).state.1.graph.relation?
        (connectorAfter connector (bindScopings e child))
        (connectorAfter child.selfLabel (bindRenames e child))).isSome ∧
      (connectorAfter connector (bindScopings e child) = connector ↔
        ¬(e.isComponent = true ∧ Label.isFree connector = true)) := by
  obtain ⟨path, c, hp, hdone, hgraph, -, -⟩ := bind_ok hbind
  have hstep := relation?_of_bindPath? hp
  have hrenames := bindRenames_eq_append hp
  refine ⟨_, connector_bind hbind hp, ?_, ?_⟩
  · rw [← connectorAfter_append, ← hrenames, hgraph]
    exact e.graph.covers_compose c.graph _ _
      ((relation?_replaceAll_iff hdone).2 ⟨_, _, rfl, rfl, hstep⟩)
  · rw [hrenames] at hdone
    obtain ⟨shared, hshared, -⟩ := replaceAll_append_ok.1 hdone
    -- The connector is a term of the child before the scoping.
    have hc : (child.replaceAll (sharings e child path)).state.graph.contains
        (connectorAfter (lastButOne path) (sharings e child path)) = true := by
      rw [hshared]
      exact (Arena.contains_of_relation?
        ((relation?_replaceAll_iff hshared).2 ⟨_, _, rfl, rfl, hstep⟩)).1
    have hsize : ∀ r ∈ bindScopings e child, Label.unmarked r.1 < Label.unmarked r.2 := by
      intro r hr
      unfold bindScopings at hr
      rw [hp] at hr
      simp only at hr
      split at hr
      · exact unmarked_lt_of_mem_scopings hr
      · exact absurd hr List.not_mem_nil
    have htaken := exists_bindScoping_iff hp
      (connectorAfter (lastButOne path) (sharings e child path))
    rw [and_iff_left hc] at htaken
    rw [connectorAfter_eq_self_iff hsize, ← htaken]
    simp only [not_exists, not_and, ne_eq]

/--
**Which term is right above the child after a bind.**

The child was made of a graph, and no rename makes another term its instance term. Then the term
above the instance term of the child is what the scoping makes of the connector. It is the connector
itself exactly if that is no free variable or the parent is no component.
-/
theorem bind_records_connector {name base selfTerm : String} {graph : TermGraph}
    (parent : Instance) {c : Instance} (hc : ofGraph name base selfTerm graph = .ok c)
    (hbind : (parent.bind c).error? = none)
    (hapart : keepsApart (bindRenames parent c) name = true) :
    let bound := (parent.bind c).state
    ∃ connector, bound.1.connector = some connector ∧
      (bound.1.graph.relation? (connectorAfter connector (bindScopings parent c))
        bound.2.selfLabel).isSome ∧
      (connectorAfter connector (bindScopings parent c) = connector ↔
        ¬(parent.isComponent = true ∧ Label.isFree connector = true)) := by
  intro bound
  obtain ⟨hac, rfl, -⟩ := anchored_ofGraph hc
  obtain ⟨connector, hconnector, habove, hkept⟩ := relation?_connector hbind
  obtain ⟨path, c₁, -, hdone, -, -, hchild⟩ := bind_ok hbind
  rw [← hac.selfLabel_eq_name] at hapart
  have hself : bound.2.selfLabel = c₁.selfLabel := by
    show (parent.bind c).state.2.selfLabel = _
    rw [hchild]
    rfl
  rw [← (hac.toTracked.replaceAll hdone hapart).2, ← hself] at habove
  exact ⟨connector, hconnector, habove, hkept⟩

/-- A motor in a section of a plant that is a component: the plant knows the section, and the
connector is the plant's. A plant that does not know it scopes the section, and the connector is no
term any more. -/
theorem bind_records_connector_section :
    let plant := TermGraph.empty.relate ⟨"plant_", "section_", ⟨"has", false⟩⟩
    let site := TermGraph.empty.relate ⟨"plant_", "site_", ⟨"has", false⟩⟩
    let motor := (TermGraph.empty.relate ⟨"plant_", "section_", ⟨"has", false⟩⟩).relate
      ⟨"section_", "motor_", ⟨"has", false⟩⟩
    ∃ p q m, ofGraph "P" "Plant" "plant_" plant = .ok p ∧
      ofGraph "P" "Site" "plant_" site = .ok q ∧ ofGraph "M" "Motor" "motor_" motor = .ok m ∧
      ({ p with isComponent := true }.bind m).error? = none ∧
      ({ p with isComponent := true }.bind m).state.1.connector = some "P section" ∧
      (({ p with isComponent := true }.bind m).state.1.graph.relation? "P section" "M").isSome ∧
      ({ q with isComponent := true }.bind m).error? = none ∧
      ({ q with isComponent := true }.bind m).state.1.connector = some "section_" ∧
      ({ q with isComponent := true }.bind m).state.1.graph.contains "section_" = false := by
  intro plant site motor
  have hrun : (ofGraph "P" "Plant" "plant_" plant).toOption.any fun p =>
      (ofGraph "P" "Site" "plant_" site).toOption.any fun q =>
        (ofGraph "M" "Motor" "motor_" motor).toOption.any fun m =>
          decide (({ p with isComponent := true }.bind m).error? = none ∧
            ({ p with isComponent := true }.bind m).state.1.connector = some "P section" ∧
            ({ p with isComponent := true }.bind m).state.2.selfLabel = "M" ∧
            keepsApart (bindRenames { p with isComponent := true } m) "M" = true ∧
            ({ q with isComponent := true }.bind m).error? = none ∧
            ({ q with isComponent := true }.bind m).state.1.connector = some "section_" ∧
            ({ q with isComponent := true }.bind m).state.1.graph.contains "section_" =
              false) := by decide +kernel
  obtain ⟨p, hp, hrun⟩ := exists_ok_of_any hrun
  obtain ⟨q, hq, hrun⟩ := exists_ok_of_any hrun
  obtain ⟨m, hm, hrun⟩ := exists_ok_of_any hrun
  obtain ⟨hbind, hknown, hself, hapart, hbind', hunknown, hgone⟩ := of_decide_eq_true hrun
  obtain ⟨connector, hconnector, habove, hkept⟩ :=
    bind_records_connector { p with isComponent := true } hm hbind hapart
  obtain rfl : connector = "P section" := Option.some.inj (hconnector.symm.trans hknown)
  rw [hkept.2 fun h => absurd h.2 (by decide), hself] at habove
  exact ⟨p, q, m, hp, hq, hm, hbind, hknown, habove, hbind', hunknown, hgone⟩

end Ontogram.Instance
