import Ontogram.Proofs.Instance.Resolved

/-!
# What scoping leaves below the instance term

The free variables below the instance term are collected first, and then they are renamed. So two
kinds of them can be left. A variable with two final markers loses one, and is a free variable still.
And a scoped variable may be called like a term that was not below the instance term. Then both
become one, what the term leads to is below the instance term from there on, and no variable of that
was collected.

* `leads_replaceAll_iff` — what is below a term when terms below it were renamed.
* `fullyScoped_scopeFree_iff` — whether scoping leaves a free variable.
* `leavesFree_iff` — which variables are left where none has two markers.
* `OneMarkerFresh.not_leavesFree` — when none is left.
* `fullyScoped_iff_not_leavesFree` — all of this for an instance of a graph and for an adopt.
-/

namespace Ontogram

/-- Scoping takes one marker off. -/
theorem Label.isVariable_scopedVariable (scope label : String) :
    Label.isVariable (Label.scopedVariable scope label) = Label.isVariable (Label.stem label) := by
  unfold Label.scopedVariable
  by_cases hstem : Label.stem label = ""
  · rw [hstem, String.append_empty, Label.isVariable_append (by decide)]
    rfl
  · exact Label.isVariable_append hstem

namespace Instance

open Arena

variable {e f : Instance} {g : TermGraph} {top label t : String}
  {renames : List (String × String)}

/-! ## Renames below a term -/

/-- What becomes of a label is the label itself or a new one. -/
theorem connectorAfter_eq_or_mem (label : String) (renames : List (String × String)) :
    connectorAfter label renames = label ∨ ∃ r ∈ renames, r.2 = connectorAfter label renames := by
  induction renames generalizing label with
  | nil => exact Or.inl rfl
  | cons r renames ih =>
    show connectorAfter (if r.1 = label then r.2 else label) renames = label ∨
      ∃ s ∈ r :: renames, s.2 = connectorAfter (if r.1 = label then r.2 else label) renames
    rcases ih (if r.1 = label then r.2 else label) with hkept | ⟨s, hs, hnew⟩
    · rw [hkept]
      split
      · exact Or.inr ⟨r, List.mem_cons_self, rfl⟩
      · exact Or.inl rfl
    · exact Or.inr ⟨s, List.mem_cons_of_mem r hs, hnew⟩

section Below

variable (hd : e.replaceAll renames = .done f)
  (hbelow : ∀ r ∈ renames, e.graph.Leads top r.1 ∧ r.1 ≠ top ∧ r.2 ≠ top)

include hbelow in
/-- Only what is below the term is renamed. -/
theorem connectorAfter_of_not_leads (hl : ¬e.graph.Leads top label) :
    connectorAfter label renames = label :=
  connectorAfter_of_forall_ne fun r hr he => hl (he ▸ (hbelow r hr).1)

include hd hbelow

/-- What was below the term is below it under its new label. -/
theorem leads_connectorAfter (hl : e.graph.Leads top label) :
    f.graph.Leads top (connectorAfter label renames) := by
  have hway := leads_replaceAll hd hl
  rwa [connectorAfter_of_forall_ne fun r hr => (hbelow r hr).2.1] at hway

/-- **What is below a term when terms below it were renamed**: what was below it, and what is below
a term that one of these became. -/
theorem leads_replaceAll_iff :
    f.graph.Leads top t ↔ ∃ label, e.graph.Leads top label ∧
      (connectorAfter label renames = t ∨
        ∃ y, e.graph.Leads (connectorAfter label renames) y ∧ connectorAfter y renames = t) := by
  constructor
  · intro hl
    induction hl with
    | single hxt =>
      obtain ⟨a, b, ha, hb, hab⟩ := (relation?_replaceAll_iff hd).1 hxt
      -- No other term becomes the top.
      have htop : a = top := by
        rcases connectorAfter_eq_or_mem a renames with hkept | ⟨r, hr, hnew⟩
        · exact hkept.symm.trans ha
        · exact absurd (hnew.trans ha) (hbelow r hr).2.2
      exact ⟨b, .single (htop ▸ hab), Or.inl hb⟩
    | @tail x t _ hxt ih =>
      obtain ⟨a, b, ha, hb, hab⟩ := (relation?_replaceAll_iff hd).1 hxt
      by_cases hbelowA : e.graph.Leads top a
      · exact ⟨b, hbelowA.tail hab, Or.inl hb⟩
      -- The term was not below the top, so a term below it became this one.
      · have hax : a = x := (connectorAfter_of_not_leads hbelow hbelowA).symm.trans ha
        rw [hax] at hab
        obtain ⟨label, hlabel, rfl | ⟨y, hway, rfl⟩⟩ := ih
        · exact ⟨label, hlabel, Or.inr ⟨b, .single hab, hb⟩⟩
        · by_cases hbelowY : e.graph.Leads top y
          · exact ⟨y, hbelowY, Or.inr ⟨b, .single hab, hb⟩⟩
          · rw [connectorAfter_of_not_leads hbelow hbelowY] at hab
            exact ⟨label, hlabel, Or.inr ⟨b, hway.tail hab, hb⟩⟩
  · rintro ⟨label, hlabel, rfl | ⟨y, hway, rfl⟩⟩
    · exact leads_connectorAfter hd hbelow hlabel
    · by_cases hagain : e.graph.Leads top (connectorAfter label renames)
      · exact leads_connectorAfter hd hbelow (Relation.TransGen.trans hagain hway)
      · have hnew := leads_replaceAll hd hway
        rw [connectorAfter_of_not_leads hbelow hagain] at hnew
        exact Relation.TransGen.trans (leads_connectorAfter hd hbelow hlabel) hnew

end Below

/-! ## Scoping -/

/-- What becomes of a label when the free variables below a term are scoped under its name. -/
def scopedBelow (g : TermGraph) (top label : String) : String :=
  connectorAfter label (scopings top (g.descendants top))

/-- Says that scoping what is below a term leaves a free variable there. It is what a term below
became, or it was not below, and a term below became one that leads to it. -/
def LeavesFree (g : TermGraph) (top : String) : Prop :=
  ∃ label, g.Leads top label ∧ (Label.isFree (scopedBelow g top label) = true ∨
    ∃ y, g.Leads (scopedBelow g top label) y ∧ ¬g.Leads top y ∧ Label.isFree y = true)

/-- No free variable is below the instance term. -/
def FullyScoped (e : Instance) : Prop :=
  ∀ t, e.graph.Leads e.name t → Label.isFree t = false

theorem below_of_mem_scopings {r : String × String}
    (hr : r ∈ scopings top (g.descendants top)) : g.Leads top r.1 ∧ r.1 ≠ top ∧ r.2 ≠ top := by
  obtain ⟨hmem, -, hnew⟩ := mem_scopings.1 hr
  obtain ⟨hne, hl⟩ := TermGraph.mem_descendants.1 hmem
  exact ⟨hl, hne, hnew ▸ Label.scopedVariable_ne top r.1⟩

/-- **Whether scoping leaves a free variable below the instance term.** -/
theorem fullyScoped_scopeFree_iff (hd : e.scopeFree = .done f) :
    f.FullyScoped ↔ ¬LeavesFree e.graph e.name := by
  have hbelow : ∀ r ∈ scopings e.name (e.graph.descendants e.name),
      e.graph.Leads e.name r.1 ∧ r.1 ≠ e.name ∧ r.2 ≠ e.name := fun _ => below_of_mem_scopings
  have hname : f.name = e.name := by
    obtain ⟨_, _, rfl⟩ := replaceAll_fields hd
    rfl
  unfold FullyScoped LeavesFree
  rw [hname, ← not_exists_not]
  refine not_congr ?_
  simp only [not_forall, Bool.not_eq_false, leads_replaceAll_iff hd hbelow]
  constructor
  · rintro ⟨t, ⟨label, hlabel, rfl | ⟨y, hway, rfl⟩⟩, hfree⟩
    · exact ⟨label, hlabel, Or.inl hfree⟩
    · by_cases hy : e.graph.Leads e.name y
      · exact ⟨y, hy, Or.inl hfree⟩
      · rw [connectorAfter_of_not_leads hbelow hy] at hfree
        exact ⟨label, hlabel, Or.inr ⟨y, hway, hy, hfree⟩⟩
  · rintro ⟨label, hlabel, hfree | ⟨y, hway, hy, hfree⟩⟩
    · exact ⟨_, ⟨label, hlabel, Or.inl rfl⟩, hfree⟩
    · exact ⟨y, ⟨label, hlabel,
        Or.inr ⟨y, hway, connectorAfter_of_not_leads hbelow hy⟩⟩, hfree⟩

/-- What is no free variable keeps its label, and so does the instance term. -/
theorem scopedBelow_of_kept (hl : label = top ∨ Label.isFree label = false) :
    scopedBelow g top label = label := by
  refine connectorAfter_of_forall_ne fun r hr he => ?_
  rcases hl with htop | hfree
  · exact (below_of_mem_scopings hr).2.1 (he.trans htop)
  · rw [← he, (mem_scopings.1 hr).2.1] at hfree
    cases hfree

/-- A variable with one marker is scoped for good. -/
theorem scopedBelow_of_isFree (hne : label ≠ top) (hl : g.Leads top label)
    (hfree : Label.isFree label = true) (hstem : Label.isVariable (Label.stem label) = false) :
    scopedBelow g top label = Label.scopedVariable top label := by
  have hnodup : ((scopings top (g.descendants top)).map Prod.fst).Nodup := by
    rw [scopings_map_fst]
    exact (TermGraph.descendants_nodup g top).filter _
  refine connectorAfter_of_mem hnodup
    (mem_scopings.2 ⟨TermGraph.mem_descendants.2 ⟨hne, hl⟩, hfree, rfl⟩) fun r hr he => ?_
  have hagain := (mem_scopings.1 hr).2.1
  rw [he, Label.isFree, Label.isVariable_scopedVariable, hstem] at hagain
  cases hagain

/-- **Which variables are left where none has two markers**: those that were not below the instance
term, and that a term with the label of a scoped variable leads to. -/
theorem leavesFree_iff (htop : g.Leads top top → Label.isFree top = false)
    (hstem : ∀ v, g.Leads top v → Label.isFree v = true →
      Label.isVariable (Label.stem v) = false) :
    LeavesFree g top ↔ ∃ v y, g.Leads top v ∧ Label.isFree v = true ∧
      g.Leads (Label.scopedVariable top v) y ∧ Label.isFree y = true ∧ ¬g.Leads top y := by
  have hne : ∀ {v}, g.Leads top v → Label.isFree v = true → v ≠ top := by
    rintro v hv hfree rfl
    rw [htop hv] at hfree
    cases hfree
  have hscoped : ∀ {v}, g.Leads top v → Label.isFree v = true →
      scopedBelow g top v = Label.scopedVariable top v := fun hv hfree =>
    scopedBelow_of_isFree (hne hv hfree) hv hfree (hstem _ hv hfree)
  constructor
  · rintro ⟨v, hv, hleft⟩
    cases hfree : Label.isFree v with
    | false =>
      rw [scopedBelow_of_kept (Or.inr hfree), hfree] at hleft
      obtain ⟨y, hway, hy, -⟩ := hleft.resolve_left Bool.false_ne_true
      exact absurd (Relation.TransGen.trans hv hway) hy
    | true =>
      rw [hscoped hv hfree, Label.isFree, Label.isVariable_scopedVariable,
        hstem v hv hfree] at hleft
      obtain ⟨y, hway, hy, hfreeY⟩ := hleft.resolve_left Bool.false_ne_true
      exact ⟨v, y, hv, hfree, hway, hfreeY, hy⟩
  · rintro ⟨v, y, hv, hfree, hway, hfreeY, hy⟩
    exact ⟨v, hv, Or.inr ⟨y, hscoped hv hfree ▸ hway, hy, hfreeY⟩⟩

/-- Says that the free variables below a term have one marker, and that no term is called like one
of them will be. -/
def OneMarkerFresh (g : TermGraph) (top : String) : Prop :=
  ∀ v ∈ g.descendants top, Label.isFree v = true →
    Label.isVariable (Label.stem v) = false ∧ g.contains (Label.scopedVariable top v) = false

instance (g : TermGraph) (top : String) : Decidable (OneMarkerFresh g top) :=
  inferInstanceAs (Decidable (∀ v ∈ g.descendants top, Label.isFree v = true →
    Label.isVariable (Label.stem v) = false ∧ g.contains (Label.scopedVariable top v) = false))

/-- Scoping is complete where the scoped labels are new. -/
theorem OneMarkerFresh.not_leavesFree (h : OneMarkerFresh g top)
    (htop : Label.isFree top = false) : ¬LeavesFree g top := by
  have hbelow : ∀ v, g.Leads top v → Label.isFree v = true →
      Label.isVariable (Label.stem v) = false ∧
        g.contains (Label.scopedVariable top v) = false := by
    intro v hv hfree
    refine h v (TermGraph.mem_descendants.2 ⟨?_, hv⟩) hfree
    rintro rfl
    rw [htop] at hfree
    cases hfree
  rw [leavesFree_iff (fun _ => htop) fun v hv hfree => (hbelow v hv hfree).1]
  rintro ⟨v, y, hv, hfree, hway, -⟩
  have hnew := (hbelow v hv hfree).2
  rw [(contains_of_leads hway).1] at hnew
  cases hnew

/-! ## Instances of a graph, and adopting -/

/-- A graph whose self term has the name of the instance. -/
def named (graph : TermGraph) (selfTerm name : String) : TermGraph :=
  (graph.relabel? selfTerm name).getD graph

theorem graph_replace_self {name base selfTerm : String} {graph : TermGraph}
    (h : (unbound name base selfTerm graph).replace selfTerm name false = .done e) :
    e.graph = named graph selfTerm name ∧ e.name = name := by
  unfold named
  rcases replace_ok h with ⟨rfl, rfl⟩ | ⟨-, graph₁, hr, rfl⟩
  · refine ⟨?_, rfl⟩
    cases hr : graph.relabel? selfTerm selfTerm with
    | none => rfl
    | some graph₁ =>
      exact (TermGraph.toArena_inj (eq_of_relabel?_self (TermGraph.relabel?_eq_some.1 hr))).symm
  · have hr : graph.relabel? selfTerm name = some graph₁ := hr
    rw [hr]
    exact ⟨rfl, rfl⟩

/--
**When no free variable is below the instance term** of an instance that was made of a graph, or
after an adopt.

Both end with the scoping, and the graph before that decides: of an instance that was made of a
graph, the graph in which the self term has its name; of an adopt, the graph without the
placeholders. If no variable there has two markers, and the instance term is no free variable below
itself, the free variables that are left are those that were not below the instance term and that a
term with the label of a scoped variable leads to. So there are none if no such term is there.
-/
theorem fullyScoped_iff_not_leavesFree (name base selfTerm : String) (graph : TermGraph)
    (e : Instance) (template : TermGraph) (model : String) :
    (∀ c, ofGraph name base selfTerm graph = .ok c →
      (c.FullyScoped ↔ ¬LeavesFree (named graph selfTerm name) name)) ∧
    ((e.adopt template model).error? = none →
      ((e.adopt template model).state.FullyScoped ↔
        ¬LeavesFree (purged e template model) e.name)) ∧
    ∀ (g : TermGraph) (top : String), (g.Leads top top → Label.isFree top = false) →
      (∀ v, g.Leads top v → Label.isFree v = true → Label.isVariable (Label.stem v) = false) →
      (LeavesFree g top ↔ ∃ v y, g.Leads top v ∧ Label.isFree v = true ∧
        g.Leads (Label.scopedVariable top v) y ∧ Label.isFree y = true ∧ ¬g.Leads top y) := by
  refine ⟨fun c h => ?_, fun h => ?_, fun g top => leavesFree_iff⟩
  · obtain ⟨c₁, hself, hscope⟩ := ofGraph_eq_ok.1 h
    rw [selfLabel_unbound] at hself
    obtain ⟨hgraph, hname⟩ := graph_replace_self hself
    rw [fullyScoped_scopeFree_iff hscope, hgraph, hname]
  · obtain ⟨graph, registry, hscope⟩ := scopeFree_done
      { e with graph := purged e template model }
    have hiff := fullyScoped_scopeFree_iff hscope
    rw [adopt_ok h, hscope]
    exact hiff

/-- A motor whose speed is scoped, and the flow of a pump that it adopts. In a machine a term is
called like the scoped speed already, and its limit is left below the machine. -/
theorem fullyScoped_iff_not_leavesFree_motor :
    let motor := TermGraph.empty.relate ⟨"motor_", "speed_", ⟨"has", false⟩⟩
    let pump := TermGraph.empty.relate ⟨"pump_", "flow_", ⟨"has", false⟩⟩
    let machine := motor.relate ⟨"M speed", "limit_", ⟨"has", false⟩⟩
    ∃ e f, ofGraph "M" "Motor" "motor_" motor = .ok e ∧ e.FullyScoped ∧
      (e.adopt pump "pump_").error? = none ∧ (e.adopt pump "pump_").state.FullyScoped ∧
      ofGraph "M" "Machine" "motor_" machine = .ok f ∧ ¬f.FullyScoped := by
  intro motor pump machine
  have hrun : (ofGraph "M" "Motor" "motor_" motor).toOption.any fun e =>
      (ofGraph "M" "Machine" "motor_" machine).toOption.any fun _ =>
        decide (e.name = "M" ∧ (e.adopt pump "pump_").error? = none ∧
          OneMarkerFresh (purged e pump "pump_") "M") := by decide +kernel
  obtain ⟨e, he, hrun⟩ := exists_ok_of_any hrun
  obtain ⟨f, hf, hrun⟩ := exists_ok_of_any hrun
  obtain ⟨hname, hadopt, hflow⟩ := of_decide_eq_true hrun
  have hplain : Label.isFree "M" = false := by decide
  obtain ⟨hmade, hadopted, -⟩ :=
    fullyScoped_iff_not_leavesFree "M" "Motor" "motor_" motor e pump "pump_"
  obtain ⟨hmade', -, hleft⟩ :=
    fullyScoped_iff_not_leavesFree "M" "Machine" "motor_" machine e pump "pump_"
  have hmotor : OneMarkerFresh (named motor "motor_" "M") "M" := by decide +kernel
  refine ⟨e, f, he, (hmade e he).2 (hmotor.not_leavesFree hplain), hadopt,
    (hadopted hadopt).2 (hname ▸ hflow.not_leavesFree hplain), hf, ?_⟩
  rw [hmade' f hf, not_not]
  -- Only the speed is below the machine before the scoping.
  have hbelow : ∀ v, (named machine "motor_" "M").Leads "M" v → v = "M" ∨ v = "speed_" := by
    intro v hv
    refine or_iff_not_imp_left.2 fun hne => List.mem_singleton.1 ?_
    rw [← show (named machine "motor_" "M").descendants "M" = ["speed_"] by decide +kernel]
    exact TermGraph.mem_descendants.2 ⟨hne, hv⟩
  refine (hleft _ _ (fun _ => hplain) fun v hv _ => ?_).2
    ⟨"speed_", "limit_", .single ?_, by decide, .single ?_, by decide, fun hl => ?_⟩
  · rcases hbelow v hv with rfl | rfl <;> decide
  · decide +kernel
  · decide +kernel
  · exact absurd (hbelow _ hl) (by decide)

end Instance

end Ontogram
