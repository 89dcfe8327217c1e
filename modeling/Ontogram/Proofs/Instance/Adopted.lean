import Ontogram.Proofs.Instance.Resolved
import Ontogram.Proofs.Instance.Spliced

/-!
# Which adopted variables are scoped

An adopt brings in everything below the model, and then takes the placeholders out. What it scopes is
what the instance term leads to after that. So a variable that the model leads to is scoped if there
is a way to it that keeps clear of placeholders, and keeps its bare label if there is none.

* `contains_adopt_iff` — which free variables are left under their labels.
* `contains_adopt_iff_pump` — a variable that is scoped, and one that is not.
-/

namespace Ontogram.Instance

open Arena

variable {e f : Instance} {template : TermGraph} {model name v a b : String}

/-! ## What is brought in -/

/-- A label of the template once the model has the name of the instance. -/
def splicedLabel (model name label : String) : String :=
  if model = label then name else label

/-- **Pairs that are spliced stay related**, the model under the name of the instance. -/
theorem relation?_splice (name : String) (hm : template.contains model = true)
    (ha : IsSpliced template model a) (hb : IsSpliced template model b)
    (hab : (template.relation? a b).isSome) :
    ((splice template model name).relation? (splicedLabel model name a)
      (splicedLabel model name b)).isSome := by
  have hpart : ((template.retain (splicedTerms template model)).relation? a b).isSome := by
    obtain ⟨r, hr⟩ := Option.isSome_iff_exists.1 hab
    rw [((isPart_retain_splicedTerms template model).relation a b r).2 ⟨ha, hb, hr⟩]
    rfl
  exact Valid.relation?_relabel? (template.retain _).valid
    (TermGraph.relabel?_eq_some.1 (relabel?_retain_splicedTerms name hm)) hpart

/-- **A way that keeps clear of placeholders is spliced.** -/
theorem leadsClearOf_splice (hname : Label.isPlaceholder name = false)
    (h : template.LeadsClearOf Label.isPlaceholder model v) :
    (splice template model name).LeadsClearOf Label.isPlaceholder name
      (splicedLabel model name v) := by
  have hm : template.contains model = true := (contains_of_leads h.leads).1
  have hclear : ∀ {x}, Label.isPlaceholder x = false →
      Label.isPlaceholder (splicedLabel model name x) = false := by
    intro x hx
    unfold splicedLabel
    split
    · exact hname
    · exact hx
  have hself : splicedLabel model name model = name := if_pos rfl
  induction h with
  | single hab =>
    have hspliced : ((splice template model name).relation? (splicedLabel model name model)
        _).isSome := relation?_splice name hm (.self template model)
      (.of_leads (.single hab.1)) hab.1
    rw [hself] at hspliced
    exact .single ⟨hspliced, hclear hab.2⟩
  | tail hlead hbc ih =>
    have hlead : template.Leads model _ := LeadsClearOf.leads hlead
    exact ih.tail ⟨relation?_splice name hm (.of_leads hlead)
      (.of_leads (hlead.tail hbc.1)) hbc.1, hclear hbc.2⟩

/-! ## What is scoped -/

/-- The graph of an adopt before the placeholders are taken out. -/
def united (e : Instance) (template : TermGraph) (model : String) : TermGraph :=
  e.graph.compose (splice template model e.name)

/-- Where nothing is renamed to a label, it is left if and only if it is not renamed. -/
theorem contains_replaceAll_iff {renames : List (String × String)}
    (hd : e.replaceAll renames = .done f) (hnew : ∀ p ∈ renames, p.2 ≠ v) :
    f.graph.contains v = true ↔ e.graph.contains v = true ∧ ∀ p ∈ renames, p.1 ≠ v := by
  induction renames generalizing e with
  | nil =>
    cases hd
    simp
  | cons p renames ih =>
    obtain ⟨e₁, h₁, hd⟩ := replaceAll_cons_ok.1 hd
    obtain ⟨hp, hnew⟩ := List.forall_mem_cons.1 hnew
    rw [ih hd hnew, List.forall_mem_cons]
    rcases replace_ok h₁ with ⟨heq, rfl⟩ | ⟨-, graph, hr, rfl⟩
    · rw [heq]
      simp [hp]
    · have hgraph := Arena.contains_relabel? (TermGraph.relabel?_eq_some.1 hr) v
      rw [or_iff_right (Ne.symm hp)] at hgraph
      rw [hgraph, ne_comm, and_assoc, and_left_comm]

/-- The ways that are left are those that keep clear of placeholders. -/
theorem leads_purged : (purged e template model).Leads a b ↔ Label.isPlaceholder a = false ∧
    (united e template model).LeadsClearOf Label.isPlaceholder a b := by
  unfold purged united
  exact TermGraph.leads_removeWhere _ Label.isPlaceholder

/-- What an adopt renames is what the instance term leads to without placeholders. -/
theorem exists_adoptRename_iff (hfree : Label.isFree v = true) :
    (∃ p ∈ adoptRenames e template model, p.1 = v) ↔ v ≠ e.name ∧
      Label.isPlaceholder e.name = false ∧
        (united e template model).LeadsClearOf Label.isPlaceholder e.name v := by
  rw [← leads_purged, ← TermGraph.mem_descendants]
  constructor
  · rintro ⟨p, hp, rfl⟩
    exact (mem_scopings.1 hp).1
  · exact fun hv => ⟨(v, Label.scopedVariable e.name v), mem_scopings.2 ⟨hv, hfree, rfl⟩, rfl⟩

/-- **Which free variables are left under their labels.** -/
theorem contains_adopt_iff_united (h : (e.adopt template model).error? = none)
    (hfree : Label.isFree v = true) (hout : ¬Label.InScope e.name v) :
    (e.adopt template model).state.graph.contains v = true ↔
      (united e template model).contains v = true ∧
        ¬(Label.isPlaceholder e.name = false ∧
          (united e template model).LeadsClearOf Label.isPlaceholder e.name v) := by
  obtain ⟨graph, registry, hdone⟩ := scopeFree_done { e with graph := purged e template model }
  have hnew : ∀ p ∈ adoptRenames e template model, p.2 ≠ v := by
    rintro p hp rfl
    obtain ⟨-, hp, heq⟩ := mem_scopings.1 hp
    exact hout (heq ▸ Label.inScope_scopedVariable hp)
  have hleft : graph.contains v = true ↔ (purged e template model).contains v = true ∧
      ∀ p ∈ adoptRenames e template model, p.1 ≠ v := contains_replaceAll_iff hdone hnew
  have hname : v ≠ e.name := fun hv => hout (Or.inl hv)
  have hplain : Label.isPlaceholder v = false := by
    rw [Label.isFree, Bool.and_eq_true, Bool.not_eq_true'] at hfree
    exact hfree.2
  rw [adopt_ok h, hdone]
  refine hleft.trans (and_congr ?_ ?_)
  · exact (contains_purged e template model v).trans (and_iff_right hplain)
  · rw [← and_iff_right hname (b := Label.isPlaceholder e.name = false ∧ _),
      ← exists_adoptRename_iff hfree]
    simp only [not_exists, not_and, ne_eq]

/--
**Which of the adopted variables are scoped.**

A free variable that does not look scoped already is left under its label by an adopt if and only if
it was a term when everything was brought in, and the instance term did not lead to it on a way that
keeps clear of placeholders. Every variable but the model that the model leads to is brought in. If
such a way leads to it in the template, it is scoped.
-/
theorem contains_adopt_iff (h : (e.adopt template model).error? = none)
    (hfree : Label.isFree v = true) (hout : ¬Label.InScope e.name v) :
    ((e.adopt template model).state.graph.contains v = true ↔
      (united e template model).contains v = true ∧
        ¬(Label.isPlaceholder e.name = false ∧
          (united e template model).LeadsClearOf Label.isPlaceholder e.name v)) ∧
    (v ≠ model → template.Leads model v → (united e template model).contains v = true) ∧
    (v ≠ model → Label.isPlaceholder e.name = false →
      template.LeadsClearOf Label.isPlaceholder model v →
      (e.adopt template model).state.graph.contains v = false) := by
  have hiff := contains_adopt_iff_united h hfree hout
  have hcovers : (united e template model).Covers (splice template model e.name).toArena :=
    e.graph.covers_compose (splice template model e.name)
  have hlabel : v ≠ model → splicedLabel model e.name v = v := fun hv => if_neg (Ne.symm hv)
  refine ⟨hiff, fun hv hlead => ?_, fun hv hname hclear => ?_⟩
  · obtain ⟨u, hu, hlast⟩ := Relation.TransGen.tail'_iff.1 hlead
    have hm : template.contains model = true := (contains_of_leads hlead).1
    have hspliced := relation?_splice e.name hm
      ⟨u, Relation.reflTransGen_iff_eq_or_transGen.1 hu, Or.inl rfl⟩
      (.of_leads hlead) hlast
    rw [hlabel hv] at hspliced
    exact (contains_of_relation? (hcovers _ _ hspliced)).2
  · have hspliced := leadsClearOf_splice hname hclear
    rw [hlabel hv] at hspliced
    have hunited : (united e template model).LeadsClearOf Label.isPlaceholder e.name v :=
      Relation.TransGen.mono (fun a b hab => ⟨hcovers a b hab.1, hab.2⟩) _ _ hspliced
    rw [Bool.eq_false_iff]
    exact fun hc => (hiff.1 hc).2 ⟨hname, hunited⟩

/-- A pump with a flow, and with a seal below a placeholder: the flow is scoped, and the seal is left
under its label. -/
theorem contains_adopt_iff_pump :
    let motor := TermGraph.empty.relate ⟨"motor_", "speed_", ⟨"has", false⟩⟩
    let pump := ((TermGraph.empty.relate ⟨"pump_", "flow_", ⟨"has", false⟩⟩).relate
      ⟨"pump_", "*part_", ⟨"has", false⟩⟩).relate ⟨"*part_", "seal_", ⟨"has", false⟩⟩
    ∃ e, ofGraph "M" "Motor" "motor_" motor = .ok e ∧ (e.adopt pump "pump_").error? = none ∧
      pump.Leads "pump_" "flow_" ∧ pump.Leads "pump_" "seal_" ∧
      (e.adopt pump "pump_").state.graph.contains "flow_" = false ∧
      (e.adopt pump "pump_").state.graph.contains "seal_" = true := by
  intro motor pump
  have hrun : (ofGraph "M" "Motor" "motor_" motor).toOption.any fun e =>
      decide (e.name = "M" ∧ (e.adopt pump "pump_").error? = none ∧
        (e.adopt pump "pump_").state.graph.contains "seal_" = true) := by
    decide +kernel
  obtain ⟨e, he, hrun⟩ := exists_ok_of_any hrun
  obtain ⟨hname, hadopt, hseal⟩ := of_decide_eq_true hrun
  have hflow : (pump.relation? "pump_" "flow_").isSome = true := by decide +kernel
  have hpart : (pump.relation? "pump_" "*part_").isSome = true := by decide +kernel
  have hbelow : (pump.relation? "*part_" "seal_").isSome = true := by decide +kernel
  have hout : ¬Label.InScope e.name "flow_" := by
    rw [hname]
    rintro (h | h)
    · exact absurd h (by decide)
    · exact Label.not_extends_of_blank_notMem (by decide) h
  have hleads : pump.Leads "pump_" "seal_" := Relation.TransGen.tail (.single hpart) hbelow
  refine ⟨e, he, hadopt, Relation.TransGen.single hflow, hleads, ?_, hseal⟩
  exact (contains_adopt_iff hadopt (by decide) hout).2.2 (by decide) (by rw [hname]; decide)
    (.single ⟨hflow, by decide⟩)

end Ontogram.Instance
