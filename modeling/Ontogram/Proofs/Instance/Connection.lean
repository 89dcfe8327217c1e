import Ontogram.Proofs.Instance.Atomic
import Ontogram.Proofs.Instance.Tracked
import Ontogram.Proofs.Search.Trail
import Ontogram.Proofs.TermGraph.Union

/-!
# A bind connects

The path of a bind leads from the parent's self term to the instance term of the child. The renames
of the bind carry it along; its start becomes the instance term of the parent, which the two graphs
then share, and its end stays the instance term of the child. So the way is there in the united
graph.

Three things can come in between. Scoping takes the start along if the name of the parent looks like
a free variable. The start is not shared if another variable of the child stands for it. And the
registry of the child loses its self term if a rename makes another term the child's instance term.

* `leads_of_bindPath?` — the way before the renames.
* `connectorAfter_bindRenames` — what becomes of its start.
* `bind_leads` — the way after the bind.
-/

namespace Ontogram.Instance

variable {e child : Instance} {path : List String}

/-- The renames of a bind in turn: those of the path, and those of the scoping. -/
def bindRenames (parent child : Instance) : List (String × String) :=
  match bindPath? parent child with
  | none => []
  | some path =>
    let shared := sharings parent child path
    let renamed := (child.replaceAll shared).state
    shared ++ if parent.isComponent then scopings parent.name renamed.graph.variableLabels else []

/-! ## The path -/

/-- The path of a bind takes a step from the parent's self term to the child. -/
theorem isTrail_of_bindPath? (hp : bindPath? e child = some path) :
    Search.IsTrail child.graph.children e.selfTerm child.selfLabel path ∧ 2 ≤ path.length := by
  obtain ⟨hpath, hlength⟩ := bindPath?_eq_some hp
  unfold Arena.shortestPath? at hpath
  split at hpath
  · exact ⟨Search.trail?_isTrail hpath, hlength⟩
  · cases hpath

theorem leads_of_bindPath? (hp : bindPath? e child = some path) :
    child.graph.Leads e.selfTerm child.selfLabel ∧ e.selfTerm ∈ path := by
  obtain ⟨htrail, hlength⟩ := isTrail_of_bindPath? hp
  refine ⟨?_, htrail.start_mem⟩
  rw [Arena.leads_eq_transGen_children child.graph.valid]
  exact htrail.transGen hlength

/-! ## What a bind does -/

/-- A bind that succeeds has renamed the child and united the two graphs. -/
theorem bind_ok (h : (e.bind child).error? = none) :
    ∃ path c, bindPath? e child = some path ∧ child.replaceAll (bindRenames e child) = .done c ∧
      (e.bind child).state.1.graph = e.graph.compose c.graph ∧
      (e.bind child).state.1.selfLabel = e.selfLabel ∧
      (e.bind child).state.2 = { c with parent := some e.name } := by
  obtain ⟨path, graph, registry, -, hp, hdone, hbind⟩ := bind_eq_done h
  rw [hbind]
  refine ⟨path, { child with graph, registry }, hp, ?_, rfl, rfl, rfl⟩
  obtain ⟨t, hshared, hscoped⟩ := Outcome.andThen_eq_done.1 hdone
  unfold bindRenames
  rw [hp]
  simp only
  rw [hshared]
  refine replaceAll_append_ok.2 ⟨t, hshared, ?_⟩
  split at hscoped
  · next hcomponent =>
    rw [if_pos hcomponent]
    exact hscoped
  · next hcomponent =>
    rw [if_neg hcomponent]
    exact hscoped

/-! ## The start of the path -/

/-- The start is shared, unless it has the name of the parent already. -/
theorem Anchored.mem_sharings (h : e.Anchored) (hmem : e.selfTerm ∈ path)
    (hne : e.selfTerm ≠ e.name)
    (hshare : ∀ key, child.registry.keyOf? e.selfTerm = some key → key = e.selfTerm) :
    (e.selfTerm, e.name) ∈ sharings e child path := by
  have hget : e.registry.get? e.selfTerm = some e.name :=
    Registry.get?_eq_of_termOf h.selfLabel_eq_name hne
  have hkey : (child.registry.keyOf? e.selfTerm).getD e.selfTerm = e.selfTerm := by
    cases hk : child.registry.keyOf? e.selfTerm with
    | none => rfl
    | some key => exact hshare key hk
  have hshared : shared? e child e.selfTerm = some e.name := by
    unfold shared?
    rw [if_pos hkey, hget]
    exact if_neg (Ne.symm hne)
  exact List.mem_filterMap.2 ⟨e.selfTerm, hmem, by rw [hshared]; rfl⟩

/-- What the parent resolves nothing else to is never renamed for sharing. -/
theorem Anchored.ne_of_mem_sharings (h : e.Anchored) {r : String × String}
    (hr : r ∈ sharings e child path) : r.1 ≠ e.name := by
  obtain ⟨label, -, hl⟩ := List.mem_filterMap.1 hr
  obtain ⟨value, hv, rfl⟩ := Option.map_eq_some_iff.1 hl
  unfold shared? at hv
  split at hv
  · split at hv
    · next found hget =>
      split at hv
      · cases hv
      · next hne =>
        rintro rfl
        exact hne ((Registry.termOf_eq_of_get? hget).symm.trans h.termOf_name)
    · cases hv
  · cases hv

/-- **The start of the path becomes the instance term of the parent.** -/
theorem Anchored.connectorAfter_bindRenames (h : e.Anchored)
    (hp : bindPath? e child = some path)
    (hscope : e.isComponent = true → Label.isFree e.name = false)
    (hshare : e.selfTerm = e.name ∨
      ∀ key, child.registry.keyOf? e.selfTerm = some key → key = e.selfTerm) :
    connectorAfter e.selfTerm (bindRenames e child) = e.name := by
  have hstart : connectorAfter e.selfTerm (sharings e child path) = e.name := by
    by_cases hne : e.selfTerm = e.name
    · rw [hne]
      exact connectorAfter_of_forall_ne fun r hr => h.ne_of_mem_sharings hr
    · have hnodup := (TermGraph.shortestPath?_nodup (bindPath?_eq_some hp).1).sublist
        (sharings_sublist e child path)
      exact connectorAfter_of_mem hnodup
        (h.mem_sharings (leads_of_bindPath? hp).2 hne (hshare.resolve_left hne))
        fun r hr => h.ne_of_mem_sharings hr
  unfold bindRenames
  rw [hp]
  simp only
  rw [connectorAfter_append, hstart]
  refine connectorAfter_of_forall_ne fun r hr => ?_
  split at hr
  · next hcomponent =>
    obtain ⟨label, hl, rfl⟩ := List.mem_map.1 hr
    have hfree := (List.mem_filter.1 hl).2
    rintro rfl
    rw [hscope hcomponent] at hfree
    cases hfree
  · exact absurd hr List.not_mem_nil

/-! ## The way after the bind -/

theorem Anchored.leads_bind (h : e.Anchored) (hc : child.Tracked)
    (hbind : (e.bind child).error? = none)
    (hscope : e.isComponent = true → Label.isFree e.name = false)
    (hshare : e.selfTerm = e.name ∨
      ∀ key, child.registry.keyOf? e.selfTerm = some key → key = e.selfTerm)
    (hapart : keepsApart (bindRenames e child) child.selfLabel = true) :
    (e.bind child).state.1.graph.Leads (e.bind child).state.1.selfLabel
      (e.bind child).state.2.selfLabel := by
  obtain ⟨path, c, hp, hdone, hgraph, hparent, hchild⟩ := bind_ok hbind
  have hway := leads_replaceAll hdone (leads_of_bindPath? hp).1
  rw [h.connectorAfter_bindRenames hp hscope hshare, ← (hc.replaceAll hdone hapart).2] at hway
  have hself : (e.bind child).state.2.selfLabel = c.selfLabel := by
    rw [hchild]
    rfl
  rw [hgraph, hparent, hself, h.selfLabel_eq_name]
  exact (e.graph.covers_compose c.graph).leads hway

/--
**A bind connects the instance term of the parent with that of the child.**

The two instances were made of graphs. The name of a component must not look like a free variable,
no other variable of the child may stand for the parent's self term, and no rename may make another
term the child's instance term.
-/
theorem bind_leads {name base selfTerm name' base' selfTerm' : String} {graph graph' : TermGraph}
    {p c : Instance} (isComponent : Bool) (hp : ofGraph name base selfTerm graph = .ok p)
    (hc : ofGraph name' base' selfTerm' graph' = .ok c)
    (hbind : ({ p with isComponent := isComponent }.bind c).error? = none)
    (hscope : isComponent = true → Label.isFree name = false)
    (hshare : selfTerm = name ∨
      ∀ key, c.registry.keyOf? selfTerm = some key → key = selfTerm)
    (hapart : keepsApart (bindRenames { p with isComponent := isComponent } c) name' = true) :
    let bound := ({ p with isComponent := isComponent }.bind c).state
    bound.1.graph.Leads bound.1.selfLabel bound.2.selfLabel := by
  intro bound
  obtain ⟨ha, rfl, rfl⟩ := anchored_ofGraph hp
  obtain ⟨hac, rfl, -⟩ := anchored_ofGraph hc
  have hparent : Anchored { p with isComponent := isComponent } :=
    ⟨⟨ha.valid, ha.termOf_variableOf, ha.variableOf_selfLabel⟩, ha.selfLabel_eq_name,
      ha.termOf_name⟩
  rw [← hac.selfLabel_eq_name] at hapart
  exact hparent.leads_bind hac.toTracked hbind hscope hshare hapart

/-- A coil bound into a motor, which is a component. -/
theorem bind_leads_coil :
    let motor := TermGraph.empty.relate ⟨"motor_", "speed_", ⟨"has", false⟩⟩
    let coil := TermGraph.empty.relate ⟨"motor_", "coil_", ⟨"part", false⟩⟩
    ∃ p c, ofGraph "M" "Motor" "motor_" motor = .ok p ∧ ofGraph "C" "Coil" "coil_" coil = .ok c ∧
      ({ p with isComponent := true }.bind c).error? = none ∧
      ({ p with isComponent := true }.bind c).state.1.graph.Leads "M" "C" := by
  intro motor coil
  have hrun : (match ofGraph "M" "Motor" "motor_" motor, ofGraph "C" "Coil" "coil_" coil with
      | .ok p, .ok c =>
        let o := { p with isComponent := true }.bind c
        decide (o.error? = none ∧ o.state.1.selfLabel = "M" ∧ o.state.2.selfLabel = "C" ∧
          c.registry.keyOf? "motor_" = some "motor_" ∧
          keepsApart (bindRenames { p with isComponent := true } c) "C" = true)
      | _, _ => false) = true := by decide +kernel
  cases hp : ofGraph "M" "Motor" "motor_" motor with
  | error cause =>
    rw [hp] at hrun
    cases hrun
  | ok p =>
    cases hc : ofGraph "C" "Coil" "coil_" coil with
    | error cause =>
      rw [hp, hc] at hrun
      cases hrun
    | ok c =>
      rw [hp, hc] at hrun
      obtain ⟨hbind, hm, hcoil, hkey, hapart⟩ := of_decide_eq_true hrun
      have hway := bind_leads true hp hc hbind (fun _ => by decide)
        (Or.inr fun key hk => Option.some.inj (hk.symm.trans hkey)) hapart
      simp only [hm, hcoil] at hway
      exact ⟨p, c, rfl, rfl, hbind, hway⟩

end Ontogram.Instance
